import Mathlib.Data.List.Induction

/-!
# The NUMA statistics of the page cache patches

With the patches applied, `copyin` and `iov_iter_copy_from_user_atomic` count the calls of the target task by
pid, and each of them prints its own report once, three minutes after its first target call. A call is one
step (`step`), a run is a list of calls.

The counters are the numbers of calls they stand for (`run_counts`), with one exception: the last patch
replaces the block of `copyin` that incremented `umiss` and keeps the array and its line of the report. So the
report of `copyin` is right exactly when there was nothing to count, and the arrays are used within their
sizes exactly when the pids, the nodes and the CPUs of the target calls are (`sound_iff`).
-/

namespace KTools.PageCache

/-- `"fstime"`. -/
def targetTask : List UInt8 := [102, 115, 116, 105, 109, 101]

/-- `current`, `smp_processor_id()` and `jiffies` during a call. -/
structure Context where
  comm : List UInt8
  pid : Nat
  cpu : Nat
  jiffies : UInt64

/-- `strcmp(current->comm, target_task) == 0`. -/
def Context.isTarget (c : Context) : Bool := c.comm == targetTask

def Context.node (c : Context) : Nat := c.cpu / 4

inductive Event where
  /-- A call of `copyin`: whether `access_ok` holds, `get_cycles` around the copy, and the nodes of the pages
  of `to` and `from`. -/
  | copyin (c : Context) (accessOk : Bool) (start stop : UInt64) (toNid fromNid : Nat)
  /-- A call of `iov_iter_copy_from_user_atomic`, with the node of `page`. -/
  | iovIter (c : Context) (pageNid : Nat)

/-! ### The statistics -/

/-- The three statics of a function that decide when it prints its report. -/
structure Timing where
  initJiff : UInt64 := 0
  output : Bool := false
  flag : Bool := false

/-- `flag` and `init_jiff` are set in the first target call. -/
def Timing.enter (t : Timing) (c : Context) : Timing :=
  if c.isTarget = true ∧ t.flag = false then { t with flag := true, initJiff := c.jiffies } else t

def Timing.Due (t : Timing) (c : Context) : Prop :=
  c.jiffies > t.initJiff + 180 * 250 ∧ t.output = false ∧ t.initJiff ≠ 0

instance (t : Timing) (c : Context) : Decidable (t.Due c) := inferInstanceAs (Decidable (_ ∧ _))

/-- `time_stat[pid]`: cycles and number of the copies across nodes, then within one. -/
structure TimeStat where
  cross : UInt64 := 0
  crossCnt : Nat := 0
  within : UInt64 := 0
  withinCnt : Nat := 0
  deriving DecidableEq

/-- The statics of the two functions; `accesses` are the indices used with the arrays, with the sizes. -/
structure Stats where
  u : Timing := {}
  utotCnt : Nat → Nat := fun _ => 0
  umiss : Nat → Nat := fun _ => 0
  timeStat : Nat → TimeStat := fun _ => {}
  k : Timing := {}
  ktotCnt : Nat → Nat := fun _ => 0
  kmiss : Nat → Nat := fun _ => 0
  pgcacheMap : Nat → Nat → Nat := fun _ _ => 0
  pgcacheWriteMap : Nat → Nat → Nat := fun _ _ => 0
  accesses : List (Nat × Nat) := []

def pids : Nat := 4096
def nodes : Nat := 8

/-- The lines of the two reports for one pid. -/
inductive Line where
  | u (pid umiss utotal : Nat) (timeStat : TimeStat)
  | k (pid kmiss ktotal : Nat)
  deriving DecidableEq

def bump (a : Nat → Nat) (i : Nat) : Nat → Nat := fun j => if j = i then a j + 1 else a j

def bump₂ (a : Nat → Nat → Nat) (i n : Nat) : Nat → Nat → Nat :=
  fun j => if j = i then bump (a j) n else a j

def TimeStat.add (t : TimeStat) (isCross : Bool) (cycles : UInt64) : TimeStat :=
  if isCross = true then { t with cross := t.cross + cycles, crossCnt := t.crossCnt + 1 }
  else { t with within := t.within + cycles, withinCnt := t.withinCnt + 1 }

/-! ### `copyin` -/

/-- Up to the report. -/
def Stats.copyinEnter (s : Stats) (c : Context) : Stats :=
  { s with
    u := s.u.enter c
    utotCnt := if c.isTarget = true then bump s.utotCnt c.pid else s.utotCnt
    accesses := s.accesses ++ if c.isTarget = true then [(c.pid, pids)] else [] }

def Stats.copyinReport (s : Stats) : List Line :=
  (List.range pids).flatMap fun i =>
    if s.utotCnt i ≠ 0 then [.u i (s.umiss i) (s.utotCnt i) (s.timeStat i)] else []

/-- The indices of the loop over the pids. -/
def reportAccesses : List (Nat × Nat) := (List.range pids).map fun i => (i, pids)

/-- The copy, and the statistics of a target call. -/
def Stats.copyinCopy (s : Stats) (c : Context) (accessOk : Bool) (start stop : UInt64) (toNid : Nat) : Stats :=
  if accessOk = true ∧ c.isTarget = true then
    { s with
      timeStat := fun i =>
        if i = c.pid then (s.timeStat i).add (toNid != c.node) (stop - start) else s.timeStat i
      accesses := s.accesses ++ [(c.pid, pids)] }
  else s

def copyin (s : Stats) (c : Context) (accessOk : Bool) (start stop : UInt64) (toNid : Nat) :
    Stats × List Line :=
  let s := s.copyinEnter c
  if s.u.Due c then
    let t := { s with u := { s.u with output := true }, accesses := s.accesses ++ reportAccesses }
    (t.copyinCopy c accessOk start stop toNid, s.copyinReport)
  else (s.copyinCopy c accessOk start stop toNid, [])

/-! ### `iov_iter_copy_from_user_atomic` -/

def Stats.iovIterEnter (s : Stats) (c : Context) (pageNid : Nat) : Stats :=
  { s with
    k := s.k.enter c
    ktotCnt := if c.isTarget = true then bump s.ktotCnt c.pid else s.ktotCnt
    pgcacheMap := if c.isTarget = true then bump₂ s.pgcacheMap c.pid pageNid else s.pgcacheMap
    pgcacheWriteMap :=
      if c.isTarget = true then bump₂ s.pgcacheWriteMap c.pid c.node else s.pgcacheWriteMap
    accesses := s.accesses ++
      if c.isTarget = true then
        [(c.pid, pids), (c.pid, pids), (pageNid, nodes), (c.pid, pids), (c.node, nodes)]
      else [] }

def Stats.iovIterReport (s : Stats) : List Line :=
  (List.range pids).flatMap fun i =>
    if s.ktotCnt i ≠ 0 then [.k i (s.kmiss i) (s.ktotCnt i)] else []

def Stats.iovIterMiss (s : Stats) (c : Context) (pageNid : Nat) : Stats :=
  if c.isTarget = true ∧ pageNid ≠ c.node then
    { s with kmiss := bump s.kmiss c.pid, accesses := s.accesses ++ [(c.pid, pids)] }
  else s

/-- The part with the statistics; the copy that follows does not use them. -/
def iovIter (s : Stats) (c : Context) (pageNid : Nat) : Stats × List Line :=
  let s := s.iovIterEnter c pageNid
  if s.k.Due c then
    let t := { s with k := { s.k with output := true }, accesses := s.accesses ++ reportAccesses }
    (t.iovIterMiss c pageNid, s.iovIterReport)
  else (s.iovIterMiss c pageNid, [])

/-! ### Runs -/

def step (s : Stats) : Event → Stats × List Line
  | .copyin c accessOk start stop toNid _ => copyin s c accessOk start stop toNid
  | .iovIter c pageNid => iovIter s c pageNid

def run (trace : List Event) : Stats := trace.foldl (fun s e => (step s e).1) {}

theorem run_concat (pre : List Event) (e : Event) : run (pre ++ [e]) = (step (run pre) e).1 :=
  List.foldl_append

namespace Event

/-- A target call of `copyin` by the pid. -/
def isCopyin (pid : Nat) : Event → Bool
  | .copyin c _ _ _ _ _ => c.isTarget && c.pid == pid
  | .iovIter _ _ => false

/-- .. that passed `access_ok`. -/
def isCopied (pid : Nat) : Event → Bool
  | .copyin c accessOk _ _ _ _ => c.isTarget && c.pid == pid && accessOk
  | .iovIter _ _ => false

/-- .. whose user buffer is on another node. -/
def isUmiss (pid : Nat) : Event → Bool
  | .copyin c _ _ _ _ fromNid => c.isTarget && c.pid == pid && fromNid != c.node
  | .iovIter _ _ => false

/-- A target call of `iov_iter_copy_from_user_atomic` by the pid. -/
def isIovIter (pid : Nat) : Event → Bool
  | .copyin _ _ _ _ _ _ => false
  | .iovIter c _ => c.isTarget && c.pid == pid

/-- .. whose page is on another node. -/
def isKmiss (pid : Nat) : Event → Bool
  | .copyin _ _ _ _ _ _ => false
  | .iovIter c pageNid => c.isTarget && c.pid == pid && pageNid != c.node

/-- The numbers that a target call uses as indices fit the arrays. -/
def Fits : Event → Prop
  | .copyin c _ _ _ _ _ => c.isTarget = true → c.pid < pids
  | .iovIter c pageNid => c.isTarget = true → c.pid < pids ∧ pageNid < nodes ∧ c.node < nodes

/-- The call prints the report of `copyin`. -/
def CopyinReports (s : Stats) : Event → Prop
  | .copyin c _ _ _ _ _ => (s.u.enter c).Due c
  | .iovIter _ _ => False

end Event

/-! ### One call -/

/-- What a call adds to the counters of a pid. -/
structure Counts (s s' : Stats) (e : Event) (pid : Nat) : Prop where
  umiss : s'.umiss pid = s.umiss pid
  utotCnt : s'.utotCnt pid = s.utotCnt pid + if e.isCopyin pid then 1 else 0
  timeStat : (s'.timeStat pid).crossCnt + (s'.timeStat pid).withinCnt =
    (s.timeStat pid).crossCnt + (s.timeStat pid).withinCnt + if e.isCopied pid then 1 else 0
  ktotCnt : s'.ktotCnt pid = s.ktotCnt pid + if e.isIovIter pid then 1 else 0
  kmiss : s'.kmiss pid = s.kmiss pid + if e.isKmiss pid then 1 else 0

theorem bump_apply (a : Nat → Nat) (i j : Nat) : bump a i j = a j + if i = j then 1 else 0 := by
  unfold bump
  by_cases h : j = i
  · rw [if_pos h, if_pos h.symm]
  · rw [if_neg h, if_neg (Ne.symm h), Nat.add_zero]

theorem enter_cnt (isTarget : Bool) (a : Nat → Nat) (pid i : Nat) :
    (if isTarget = true then bump a pid else a) i =
      a i + if (isTarget && pid == i) = true then 1 else 0 := by
  cases isTarget with
  | false => simp
  | true => simp [bump_apply]

theorem add_cnt (t : TimeStat) (isCross : Bool) (cycles : UInt64) :
    (t.add isCross cycles).crossCnt + (t.add isCross cycles).withinCnt = t.crossCnt + t.withinCnt + 1 := by
  unfold TimeStat.add
  split
  · exact Nat.add_right_comm _ _ _
  · rfl

theorem copyinCopy_timeStat (s : Stats) (c : Context) (accessOk : Bool) (start stop : UInt64) (toNid pid : Nat) :
    ((s.copyinCopy c accessOk start stop toNid).timeStat pid).crossCnt +
        ((s.copyinCopy c accessOk start stop toNid).timeStat pid).withinCnt =
      (s.timeStat pid).crossCnt + (s.timeStat pid).withinCnt +
        if (c.isTarget && c.pid == pid && accessOk) = true then 1 else 0 := by
  unfold Stats.copyinCopy
  by_cases hcopy : accessOk = true ∧ c.isTarget = true
  · rw [if_pos hcopy]
    by_cases hpid : pid = c.pid
    · simp [hpid, hcopy, add_cnt]
    · simp [hpid, Ne.symm hpid, hcopy]
  · have hnot : (c.isTarget && c.pid == pid && accessOk) = false := by
      cases hok : accessOk <;> cases htarget : c.isTarget <;> simp_all
    simp [if_neg hcopy, hnot]

theorem copyinCopy_other (s : Stats) (c : Context) (accessOk : Bool) (start stop : UInt64) (toNid : Nat) :
    (s.copyinCopy c accessOk start stop toNid).umiss = s.umiss ∧
      (s.copyinCopy c accessOk start stop toNid).utotCnt = s.utotCnt ∧
      (s.copyinCopy c accessOk start stop toNid).ktotCnt = s.ktotCnt ∧
      (s.copyinCopy c accessOk start stop toNid).kmiss = s.kmiss := by
  unfold Stats.copyinCopy
  split
  · exact ⟨rfl, rfl, rfl, rfl⟩
  · exact ⟨rfl, rfl, rfl, rfl⟩

theorem iovIterMiss_kmiss (s : Stats) (c : Context) (pageNid pid : Nat) :
    (s.iovIterMiss c pageNid).kmiss pid =
      s.kmiss pid + if (c.isTarget && c.pid == pid && pageNid != c.node) = true then 1 else 0 := by
  unfold Stats.iovIterMiss
  by_cases hmiss : c.isTarget = true ∧ pageNid ≠ c.node
  · rw [if_pos hmiss]
    simp [bump_apply, hmiss]
  · have hnot : (c.isTarget && c.pid == pid && pageNid != c.node) = false := by
      cases htarget : c.isTarget
      · rfl
      · have hsame : pageNid = c.node := by simpa [htarget] using hmiss
        simp [hsame]
    simp [if_neg hmiss, hnot]

theorem iovIterMiss_other (s : Stats) (c : Context) (pageNid : Nat) :
    (s.iovIterMiss c pageNid).umiss = s.umiss ∧ (s.iovIterMiss c pageNid).utotCnt = s.utotCnt ∧
      (s.iovIterMiss c pageNid).timeStat = s.timeStat ∧ (s.iovIterMiss c pageNid).ktotCnt = s.ktotCnt := by
  unfold Stats.iovIterMiss
  split
  · exact ⟨rfl, rfl, rfl, rfl⟩
  · exact ⟨rfl, rfl, rfl, rfl⟩

theorem copyin_counts (s : Stats) (c : Context) (accessOk : Bool) (start stop : UInt64) (toNid fromNid pid : Nat) :
    Counts s (copyin s c accessOk start stop toNid).1 (.copyin c accessOk start stop toNid fromNid) pid := by
  -- the report changes no counter
  have hcopy : ∀ t : Stats, t.umiss = s.umiss → t.timeStat = s.timeStat → t.ktotCnt = s.ktotCnt →
      t.kmiss = s.kmiss → t.utotCnt = (s.copyinEnter c).utotCnt →
      Counts s (t.copyinCopy c accessOk start stop toNid) (.copyin c accessOk start stop toNid fromNid) pid := by
    intro t humiss htime hktot hkmiss hutot
    obtain ⟨humiss', hutot', hktot', hkmiss'⟩ := copyinCopy_other t c accessOk start stop toNid
    constructor
    · rw [humiss', humiss]
    · rw [hutot', hutot]
      exact enter_cnt _ _ _ _
    · rw [copyinCopy_timeStat, htime]
      rfl
    · rw [hktot', hktot]
      rfl
    · rw [hkmiss', hkmiss]
      rfl
  by_cases hdue : (s.copyinEnter c).u.Due c
  · simp only [copyin, if_pos hdue]
    exact hcopy _ rfl rfl rfl rfl rfl
  · simp only [copyin, if_neg hdue]
    exact hcopy _ rfl rfl rfl rfl rfl

theorem iovIter_counts (s : Stats) (c : Context) (pageNid pid : Nat) :
    Counts s (iovIter s c pageNid).1 (.iovIter c pageNid) pid := by
  have hmiss : ∀ t : Stats, t.umiss = s.umiss → t.timeStat = s.timeStat → t.utotCnt = s.utotCnt →
      t.kmiss = s.kmiss → t.ktotCnt = (s.iovIterEnter c pageNid).ktotCnt →
      Counts s (t.iovIterMiss c pageNid) (.iovIter c pageNid) pid := by
    intro t humiss htime hutot hkmiss hktot
    obtain ⟨humiss', hutot', htime', hktot'⟩ := iovIterMiss_other t c pageNid
    constructor
    · rw [humiss', humiss]
    · rw [hutot', hutot]
      rfl
    · rw [htime', htime]
      rfl
    · rw [hktot', hktot]
      exact enter_cnt _ _ _ _
    · rw [iovIterMiss_kmiss, hkmiss]
      rfl
  by_cases hdue : (s.iovIterEnter c pageNid).k.Due c
  · simp only [iovIter, if_pos hdue]
    exact hmiss _ rfl rfl rfl rfl rfl
  · simp only [iovIter, if_neg hdue]
    exact hmiss _ rfl rfl rfl rfl rfl

theorem step_counts (s : Stats) (e : Event) (pid : Nat) : Counts s (step s e).1 e pid := by
  cases e with
  | copyin c accessOk start stop toNid fromNid => exact copyin_counts s c accessOk start stop toNid fromNid pid
  | iovIter c pageNid => exact iovIter_counts s c pageNid pid

/-- **The counters of a run**: all are the numbers of the calls, except `umiss`, which stays zero. -/
theorem run_counts (trace : List Event) (pid : Nat) :
    (run trace).umiss pid = 0 ∧ (run trace).utotCnt pid = trace.countP (Event.isCopyin pid) ∧
      ((run trace).timeStat pid).crossCnt + ((run trace).timeStat pid).withinCnt =
        trace.countP (Event.isCopied pid) ∧
      (run trace).ktotCnt pid = trace.countP (Event.isIovIter pid) ∧
      (run trace).kmiss pid = trace.countP (Event.isKmiss pid) := by
  induction trace using List.reverseRecOn with
  | nil => exact ⟨rfl, rfl, rfl, rfl, rfl⟩
  | append_singleton pre e ih =>
    obtain ⟨humiss, hutot, htime, hktot, hkmiss⟩ := ih
    have hstep := step_counts (run pre) e pid
    rw [run_concat]
    simp only [List.countP_append, List.countP_singleton]
    refine ⟨hstep.umiss.trans humiss, ?_, ?_, ?_, ?_⟩
    · rw [hstep.utotCnt, hutot]
    · rw [hstep.timeStat, htime]
    · rw [hstep.ktotCnt, hktot]
    · rw [hstep.kmiss, hkmiss]

/-! ### The indices -/

/-- All indices so far were within their arrays. -/
def Stats.InRange (s : Stats) : Prop := ∀ a ∈ s.accesses, a.1 < a.2

theorem copyinEnter_inRange (s : Stats) (c : Context) :
    (s.copyinEnter c).InRange ↔ s.InRange ∧ (c.isTarget = true → c.pid < pids) := by
  unfold Stats.copyinEnter
  rw [Stats.InRange, List.forall_mem_append]
  cases c.isTarget with
  | false => simp [Stats.InRange]
  | true => simp [Stats.InRange]

theorem copyinCopy_inRange (s : Stats) (c : Context) (accessOk : Bool) (start stop : UInt64) (toNid : Nat) :
    (s.copyinCopy c accessOk start stop toNid).InRange ↔
      s.InRange ∧ (accessOk = true ∧ c.isTarget = true → c.pid < pids) := by
  unfold Stats.copyinCopy
  by_cases hcopy : accessOk = true ∧ c.isTarget = true
  · rw [if_pos hcopy, Stats.InRange, List.forall_mem_append]
    simp [Stats.InRange, hcopy]
  · simp [hcopy]

theorem iovIterEnter_inRange (s : Stats) (c : Context) (pageNid : Nat) :
    (s.iovIterEnter c pageNid).InRange ↔
      s.InRange ∧ (c.isTarget = true → c.pid < pids ∧ pageNid < nodes ∧ c.node < nodes) := by
  unfold Stats.iovIterEnter
  rw [Stats.InRange, List.forall_mem_append]
  cases c.isTarget with
  | false => simp [Stats.InRange]
  | true =>
    simp only [Stats.InRange, if_true, List.forall_mem_cons]
    tauto

theorem iovIterMiss_inRange (s : Stats) (c : Context) (pageNid : Nat) :
    (s.iovIterMiss c pageNid).InRange ↔
      s.InRange ∧ (c.isTarget = true ∧ pageNid ≠ c.node → c.pid < pids) := by
  unfold Stats.iovIterMiss
  by_cases hmiss : c.isTarget = true ∧ pageNid ≠ c.node
  · rw [if_pos hmiss, Stats.InRange, List.forall_mem_append]
    simp [Stats.InRange, hmiss]
  · simp [hmiss]

theorem reportAccesses_lt : ∀ a ∈ reportAccesses, a.1 < a.2 := by
  intro a ha
  obtain ⟨i, hi, rfl⟩ := List.mem_map.1 ha
  exact List.mem_range.1 hi

/-- A call stays in the arrays exactly when its numbers fit them; the loops of the reports do. -/
theorem step_inRange (s : Stats) (e : Event) : (step s e).1.InRange ↔ s.InRange ∧ e.Fits := by
  cases e with
  | copyin c accessOk start stop toNid fromNid =>
    have hreport : Stats.InRange { s.copyinEnter c with
        u := { (s.copyinEnter c).u with output := true }
        accesses := (s.copyinEnter c).accesses ++ reportAccesses } ↔ (s.copyinEnter c).InRange := by
      rw [Stats.InRange, List.forall_mem_append]
      exact and_iff_left reportAccesses_lt
    simp only [step, copyin, Event.Fits]
    split
    · rw [copyinCopy_inRange, hreport, copyinEnter_inRange]
      tauto
    · rw [copyinCopy_inRange, copyinEnter_inRange]
      tauto
  | iovIter c pageNid =>
    have hreport : Stats.InRange { s.iovIterEnter c pageNid with
        k := { (s.iovIterEnter c pageNid).k with output := true }
        accesses := (s.iovIterEnter c pageNid).accesses ++ reportAccesses } ↔
          (s.iovIterEnter c pageNid).InRange := by
      rw [Stats.InRange, List.forall_mem_append]
      exact and_iff_left reportAccesses_lt
    simp only [step, iovIter, Event.Fits]
    split
    · rw [iovIterMiss_inRange, hreport, iovIterEnter_inRange]
      tauto
    · rw [iovIterMiss_inRange, iovIterEnter_inRange]
      tauto

theorem run_inRange (trace : List Event) : (run trace).InRange ↔ ∀ e ∈ trace, e.Fits := by
  induction trace using List.reverseRecOn with
  | nil => exact iff_of_true (List.forall_mem_nil _) (List.forall_mem_nil _)
  | append_singleton pre e ih => rw [run_concat, step_inRange, ih, List.forall_mem_append, List.forall_mem_singleton]

/-! ### The reports -/

theorem mem_copyinReport {s : Stats} {line : Line} :
    line ∈ s.copyinReport ↔
      ∃ i < pids, s.utotCnt i ≠ 0 ∧ line = .u i (s.umiss i) (s.utotCnt i) (s.timeStat i) := by
  unfold Stats.copyinReport
  simp only [List.mem_flatMap, List.mem_range]
  refine exists_congr fun i => and_congr_right fun _ => ?_
  split
  · rename_i h
    simp [h]
  · rename_i h
    simp [h]

theorem mem_iovIterReport {s : Stats} {line : Line} :
    line ∈ s.iovIterReport ↔
      ∃ i < pids, s.ktotCnt i ≠ 0 ∧ line = .k i (s.kmiss i) (s.ktotCnt i) := by
  unfold Stats.iovIterReport
  simp only [List.mem_flatMap, List.mem_range]
  refine exists_congr fun i => and_congr_right fun _ => ?_
  split
  · rename_i h
    simp [h]
  · rename_i h
    simp [h]

/-- The lines of a call are its function's report, when it is due. -/
theorem copyin_lines (s : Stats) (c : Context) (accessOk : Bool) (start stop : UInt64) (toNid : Nat) :
    (copyin s c accessOk start stop toNid).2 =
      if (s.u.enter c).Due c then (s.copyinEnter c).copyinReport else [] := by
  have hcur : (s.copyinEnter c).u = s.u.enter c := rfl
  by_cases hdue : (s.u.enter c).Due c
  · simp only [copyin, hcur, if_pos hdue]
  · simp only [copyin, hcur, if_neg hdue]

theorem iovIter_lines (s : Stats) (c : Context) (pageNid : Nat) :
    (iovIter s c pageNid).2 =
      if (s.k.enter c).Due c then (s.iovIterEnter c pageNid).iovIterReport else [] := by
  have hcur : (s.iovIterEnter c pageNid).k = s.k.enter c := rfl
  by_cases hdue : (s.k.enter c).Due c
  · simp only [iovIter, hcur, if_pos hdue]
  · simp only [iovIter, hcur, if_neg hdue]

/-- The lines of the report of `copyin` for a pid. -/
theorem copyin_line {s : Stats} {e : Event} {pid umiss utotal : Nat} {t : TimeStat} :
    Line.u pid umiss utotal t ∈ (step s e).2 ↔
      e.CopyinReports s ∧ pid < pids ∧ utotal ≠ 0 ∧ umiss = s.umiss pid ∧
        utotal = s.utotCnt pid + (if e.isCopyin pid then 1 else 0) ∧ t = s.timeStat pid := by
  cases e with
  | copyin c accessOk start stop toNid fromNid =>
    have htotal : (s.copyinEnter c).utotCnt pid =
        s.utotCnt pid + if (c.isTarget && c.pid == pid) = true then 1 else 0 := enter_cnt _ _ _ _
    have hreport : Line.u pid umiss utotal t ∈ (s.copyinEnter c).copyinReport ↔
        pid < pids ∧ utotal ≠ 0 ∧ umiss = s.umiss pid ∧
          utotal = s.utotCnt pid + (if (c.isTarget && c.pid == pid) = true then 1 else 0) ∧
          t = s.timeStat pid := by
      rw [mem_copyinReport, ← htotal]
      constructor
      · rintro ⟨i, hi, hne, hline⟩
        obtain ⟨rfl, rfl, rfl, rfl⟩ := Line.u.inj hline
        exact ⟨hi, hne, rfl, rfl, rfl⟩
      · rintro ⟨hpid, hne, rfl, rfl, rfl⟩
        exact ⟨pid, hpid, hne, rfl⟩
    rw [step, copyin_lines]
    simp only [Event.CopyinReports, Event.isCopyin]
    split
    · rename_i hdue
      rw [hreport]
      exact (and_iff_right hdue).symm
    · rename_i hdue
      exact iff_of_false List.not_mem_nil fun h => hdue h.1
  | iovIter c pageNid =>
    refine iff_of_false (fun h => ?_) fun h => h.1
    rw [step, iovIter_lines] at h
    split at h
    · obtain ⟨i, -, -, hline⟩ := mem_iovIterReport.1 h
      cases hline
    · exact absurd h List.not_mem_nil

/-- A line of the report of `iov_iter_copy_from_user_atomic` for a pid. -/
theorem iovIter_line {s : Stats} {e : Event} {pid kmiss ktotal : Nat}
    (h : Line.k pid kmiss ktotal ∈ (step s e).2) :
    kmiss = s.kmiss pid ∧ s.ktotCnt pid ≤ ktotal := by
  cases e with
  | copyin c accessOk start stop toNid fromNid =>
    rw [step, copyin_lines] at h
    split at h
    · obtain ⟨i, -, -, hline⟩ := mem_copyinReport.1 h
      cases hline
    · exact absurd h List.not_mem_nil
  | iovIter c pageNid =>
    have htotal : (s.iovIterEnter c pageNid).ktotCnt pid =
        s.ktotCnt pid + if (c.isTarget && c.pid == pid) = true then 1 else 0 := enter_cnt _ _ _ _
    rw [step, iovIter_lines] at h
    split at h
    · obtain ⟨i, -, -, hline⟩ := mem_iovIterReport.1 h
      obtain ⟨rfl, rfl, rfl⟩ := Line.k.inj hline
      exact ⟨rfl, htotal ▸ Nat.le_add_right _ _⟩
    · exact absurd h List.not_mem_nil

/-- The indices of a run are in range, and the reports print the numbers of the calls completed before:
those whose node is not the one of the CPU, within the totals, and the copies that were timed. -/
structure Sound (trace : List Event) : Prop where
  inRange : (run trace).InRange
  umiss : ∀ pre e post pid umiss utotal t, trace = pre ++ e :: post →
    Line.u pid umiss utotal t ∈ (step (run pre) e).2 →
    umiss = pre.countP (Event.isUmiss pid) ∧ umiss ≤ utotal ∧
      t.crossCnt + t.withinCnt = pre.countP (Event.isCopied pid)
  kmiss : ∀ pre e post pid kmiss ktotal, trace = pre ++ e :: post →
    Line.k pid kmiss ktotal ∈ (step (run pre) e).2 →
    kmiss = pre.countP (Event.isKmiss pid) ∧ kmiss ≤ ktotal

theorem countP_isUmiss_eq_zero {trace : List Event} {pid : Nat} :
    trace.countP (Event.isUmiss pid) = 0 ↔ ∀ e ∈ trace, e.isUmiss pid = false := by
  rw [List.countP_eq_zero]
  simp only [Bool.not_eq_true]

theorem isCopyin_of_isUmiss {pid : Nat} {e : Event} (h : e.isUmiss pid = true) : e.isCopyin pid = true := by
  cases e with
  | copyin c accessOk start stop toNid fromNid =>
    simp only [Event.isUmiss, Bool.and_eq_true] at h
    simp only [Event.isCopyin, Bool.and_eq_true, h, and_self]
  | iovIter c pageNid => cases h

theorem pid_lt_of_fits {pid : Nat} {e : Event} (he : e.Fits) (h : e.isCopyin pid = true) : pid < pids := by
  cases e with
  | copyin c accessOk start stop toNid fromNid =>
    simp only [Event.isCopyin, Bool.and_eq_true, beq_iff_eq] at h
    exact h.2 ▸ he h.1
  | iovIter c pageNid => cases h

theorem countP_isKmiss_le (trace : List Event) (pid : Nat) :
    trace.countP (Event.isKmiss pid) ≤ trace.countP (Event.isIovIter pid) := by
  refine List.countP_mono_left fun e _ h => ?_
  cases e with
  | copyin c accessOk start stop toNid fromNid => cases h
  | iovIter c pageNid =>
    simp only [Event.isKmiss, Bool.and_eq_true] at h
    simp only [Event.isIovIter, Bool.and_eq_true, h, and_self]

/-- **The statistics are sound exactly when** the target calls' numbers fit the arrays, and no target call of
`copyin` before its report had its user buffer on another node. -/
theorem sound_iff (trace : List Event) :
    Sound trace ↔ (∀ e ∈ trace, e.Fits) ∧
      ∀ pre e post, trace = pre ++ e :: post → e.CopyinReports (run pre) →
        ∀ call ∈ pre, ∀ pid, call.isUmiss pid = false := by
  constructor
  · intro h
    have hfits := (run_inRange trace).1 h.inRange
    refine ⟨hfits, ?_⟩
    rintro pre e post hsplit hreports call hcall pid
    by_contra hmiss
    have hmiss : call.isUmiss pid = true := by simpa using hmiss
    obtain ⟨humiss, hutot, -⟩ := run_counts pre pid
    -- the pid has been counted, so that the report has a line for it
    have hpid : pid < pids := by
      refine pid_lt_of_fits (hfits call ?_) (isCopyin_of_isUmiss hmiss)
      rw [hsplit]
      exact List.mem_append_left _ hcall
    have htotal : 0 < (run pre).utotCnt pid := by
      rw [hutot, List.countP_pos_iff]
      exact ⟨call, hcall, isCopyin_of_isUmiss hmiss⟩
    have hline := copyin_line.2 ⟨hreports, hpid, by omega, rfl, rfl, rfl⟩
    obtain ⟨hcount, -, -⟩ := h.umiss pre e post pid _ _ _ hsplit hline
    rw [humiss] at hcount
    have hzero := countP_isUmiss_eq_zero.1 hcount.symm call hcall
    rw [hmiss] at hzero
    cases hzero
  · rintro ⟨hfits, hnone⟩
    refine ⟨(run_inRange trace).2 hfits, ?_, ?_⟩
    · intro pre e post pid umiss utotal t hsplit hline
      obtain ⟨hreports, -, -, rfl, rfl, rfl⟩ := copyin_line.1 hline
      obtain ⟨humiss, -, htime, -, -⟩ := run_counts pre pid
      refine ⟨?_, ?_, htime⟩
      · rw [humiss, eq_comm, countP_isUmiss_eq_zero]
        exact fun call hcall => hnone pre e post hsplit hreports call hcall pid
      · rw [humiss]
        exact Nat.zero_le _
    · intro pre e post pid kmiss ktotal hsplit hline
      obtain ⟨rfl, htotal⟩ := iovIter_line hline
      obtain ⟨-, -, -, hktot, hkmiss⟩ := run_counts pre pid
      refine ⟨hkmiss, ?_⟩
      calc (run pre).kmiss pid = pre.countP (Event.isKmiss pid) := hkmiss
        _ ≤ pre.countP (Event.isIovIter pid) := countP_isKmiss_le pre pid
        _ = (run pre).ktotCnt pid := hktot.symm
        _ ≤ ktotal := htotal

/-- Process 7 copies on CPU 0 from a buffer on node 1, and once more after three minutes. -/
def crossCopies : List Event :=
  [.copyin ⟨targetTask, 7, 0, 1⟩ true 0 10 0 1, .copyin ⟨targetTask, 7, 0, 50000⟩ true 0 10 0 1]

/-- The report of the second call says `umiss: 0`. -/
theorem crossCopies_not_sound : ¬ ∀ trace, Sound trace := by
  intro h
  have hline : Line.u 7 0 2 ⟨0, 0, 10, 1⟩ ∈
      (step (run [.copyin ⟨targetTask, 7, 0, 1⟩ true 0 10 0 1])
        (.copyin ⟨targetTask, 7, 0, 50000⟩ true 0 10 0 1)).2 := by
    decide +kernel
  obtain ⟨hcount, -, -⟩ := (h crossCopies).umiss [_] _ [] 7 0 2 _ rfl hline
  revert hcount
  decide

end KTools.PageCache
