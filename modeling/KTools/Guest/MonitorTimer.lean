import Mathlib.Data.List.Nodup

/-!
# The per-CPU timers of guest_monitor_rdtsc_pvti

The module keeps a timer for every possible CPU. `monitor_timer_init` sets up and arms the timers of the CPUs
that are online, the callback arms its timer again, and `monitor_timer_exit` deletes the timers of the CPUs
that are online by then. In between, CPUs come and go and timers expire in any order (`run`); a pending timer
of a CPU that goes offline is moved to another CPU.

No event between the two changes which timers are set up and pending (`run_invariant`): they are the ones of
the CPUs that were online at the start. So the shutdown is complete exactly when the same CPUs are online at
the end (`Life.shutdown_iff`).
-/

namespace KTools.Guest

/-- `struct timer_list`: `pending` is the CPU in whose wheel the timer is queued. -/
structure Timer where
  setUp : Bool := false
  expires : Nat := 0
  pending : Option Nat := none

structure PerCpuTimerData where
  timer : Timer := {}
  cpu : Nat := 0

/-- The kernel's side and `cpu_timer_data`; `delCalls` are the `del_timer_sync` calls, with the CPU of the timer
and whether the timer had been set up. -/
structure State where
  online : Nat → Bool
  jiffies : Nat
  cpuTimerData : Nat → PerCpuTimerData
  delCalls : List (Nat × Bool)

section
variable (nrCpuIds hz : Nat)

/-- `for_each_online_cpu`: the bits of the mask, in ascending order. -/
def forEachOnlineCpu (online : Nat → Bool) : List Nat := (List.range nrCpuIds).filter online

def State.updateTimer (s : State) (cpu : Nat) (f : PerCpuTimerData → PerCpuTimerData) : State :=
  { s with cpuTimerData := fun c => if c = cpu then f (s.cpuTimerData c) else s.cpuTimerData c }

/-! ### The module -/

/-- The callback of the timer of `cpu`, on the CPU `smpProcessorId`: `mod_timer` queues it there. -/
def timerCallback (s : State) (cpu smpProcessorId : Nat) : State :=
  s.updateTimer cpu fun data =>
    { data with timer := { data.timer with expires := s.jiffies + hz, pending := some smpProcessorId } }

/-- `timer_setup_on_stack` and `add_timer_on`. -/
def initCpu (s : State) (cpu : Nat) : State :=
  s.updateTimer cpu fun _ => { timer := ⟨true, s.jiffies + hz, some cpu⟩, cpu := cpu }

def monitorTimerInit (s : State) : State := (forEachOnlineCpu nrCpuIds s.online).foldl (initCpu hz) s

/-- `del_timer_sync`: the timer is not pending afterwards, and its callback not running. -/
def delTimerSync (s : State) (cpu : Nat) : State :=
  { s.updateTimer cpu fun data => { data with timer := { data.timer with pending := none } } with
    delCalls := s.delCalls ++ [(cpu, (s.cpuTimerData cpu).timer.setUp)] }

def monitorTimerExit (s : State) : State := (forEachOnlineCpu nrCpuIds s.online).foldl delTimerSync s

/-! ### What happens in between -/

inductive Event where
  | tick
  | online (cpu : Nat)
  /-- The CPU goes offline and the timers in its wheel are moved to `target`. -/
  | offline (cpu target : Nat)
  /-- The timer of `cpu` expires. -/
  | expire (cpu : Nat)

/-- One event; an event that cannot happen leaves the state as it is. -/
def step (s : State) : Event → State
  | .tick => { s with jiffies := s.jiffies + 1 }
  | .online cpu =>
    if cpu < nrCpuIds then { s with online := fun c => if c = cpu then true else s.online c } else s
  | .offline cpu target =>
    if s.online cpu = true ∧ s.online target = true ∧ target ≠ cpu then
      { s with
        online := fun c => if c = cpu then false else s.online c
        cpuTimerData := fun c =>
          let data := s.cpuTimerData c
          if data.timer.pending = some cpu then
            { data with timer := { data.timer with pending := some target } }
          else data }
    else s
  | .expire cpu =>
    match (s.cpuTimerData cpu).timer.pending with
    | some wheel =>
      if (s.cpuTimerData cpu).timer.expires ≤ s.jiffies then timerCallback hz s cpu wheel else s
    | none => s

def run (s : State) (events : List Event) : State := events.foldl (step nrCpuIds hz) s

/-! ### Set-up and pending timers -/

/-- The timers of the CPUs in `cpus` are set up and pending, the others are neither. -/
def Armed (cpus : Nat → Bool) (s : State) : Prop :=
  ∀ c, (s.cpuTimerData c).timer.setUp = cpus c ∧ (s.cpuTimerData c).timer.pending.isSome = cpus c

theorem mem_forEachOnlineCpu {online : Nat → Bool} {c : Nat} :
    c ∈ forEachOnlineCpu nrCpuIds online ↔ c < nrCpuIds ∧ online c = true := by
  simp only [forEachOnlineCpu, List.mem_filter, List.mem_range]

theorem foldl_initCpu (l : List Nat) :
    ∀ s : State, (∀ c, c ∈ l → (l.foldl (initCpu hz) s).cpuTimerData c =
        { timer := ⟨true, s.jiffies + hz, some c⟩, cpu := c }) ∧
      (∀ c, c ∉ l → (l.foldl (initCpu hz) s).cpuTimerData c = s.cpuTimerData c) ∧
      (l.foldl (initCpu hz) s).online = s.online ∧ (l.foldl (initCpu hz) s).delCalls = s.delCalls := by
  induction l with
  | nil => exact fun s => ⟨fun c hc => absurd hc List.not_mem_nil, fun _ _ => rfl, rfl, rfl⟩
  | cons a l ih =>
    intro s
    obtain ⟨hin, hout, honline, hcalls⟩ := ih (initCpu hz s a)
    refine ⟨fun c hc => ?_, fun c hc => ?_, honline, hcalls⟩
    · by_cases hl : c ∈ l
      · exact hin c hl
      · obtain rfl : c = a := (List.mem_cons.1 hc).resolve_right hl
        rw [List.foldl_cons, hout c hl]
        simp only [initCpu, State.updateTimer, if_true]
    · rw [List.mem_cons, not_or] at hc
      rw [List.foldl_cons, hout c hc.2]
      simp only [initCpu, State.updateTimer, if_neg hc.1]

theorem foldl_delTimerSync (l : List Nat) :
    ∀ s : State, l.Nodup →
      (∀ c, ((l.foldl delTimerSync s).cpuTimerData c).timer.pending =
        if c ∈ l then none else (s.cpuTimerData c).timer.pending) ∧
      (l.foldl delTimerSync s).delCalls =
        s.delCalls ++ l.map fun c => (c, (s.cpuTimerData c).timer.setUp) := by
  induction l with
  | nil => exact fun s _ => ⟨fun c => by simp, by simp⟩
  | cons a l ih =>
    intro s hnodup
    obtain ⟨ha, hnodup⟩ := List.nodup_cons.1 hnodup
    obtain ⟨hpending, hcalls⟩ := ih (delTimerSync s a) hnodup
    refine ⟨fun c => ?_, ?_⟩
    · rw [List.foldl_cons, hpending]
      by_cases hl : c ∈ l
      · rw [if_pos hl, if_pos (List.mem_cons_of_mem _ hl)]
      · by_cases hc : c = a
        · rw [if_neg hl, if_pos (hc ▸ List.mem_cons_self)]
          simp only [delTimerSync, State.updateTimer, if_pos hc]
        · rw [if_neg hl, if_neg (by simp [hc, hl])]
          simp only [delTimerSync, State.updateTimer, if_neg hc]
    · rw [List.foldl_cons, hcalls]
      have hsame : ∀ c ∈ l, ((delTimerSync s a).cpuTimerData c).timer.setUp =
          (s.cpuTimerData c).timer.setUp := by
        intro c hc
        have hne : c ≠ a := fun h => ha (h ▸ hc)
        simp only [delTimerSync, State.updateTimer, if_neg hne]
      have hrest : l.map (fun c => (c, ((delTimerSync s a).cpuTimerData c).timer.setUp)) =
          l.map fun c => (c, (s.cpuTimerData c).timer.setUp) :=
        List.map_congr_left fun c hc => by rw [hsame c hc]
      rw [hrest]
      simp [delTimerSync, State.updateTimer]

theorem updateTimer_armed {cpus : Nat → Bool} {s : State} (h : Armed cpus s) {cpu : Nat}
    {f : PerCpuTimerData → PerCpuTimerData}
    (hf : ∀ data, (f data).timer.setUp = data.timer.setUp ∧
      (data.timer.pending.isSome = true → (f data).timer.pending.isSome = true))
    (hpending : (s.cpuTimerData cpu).timer.pending.isSome = true) : Armed cpus (s.updateTimer cpu f) := by
  intro c
  obtain ⟨hsetUp, hsome⟩ := h c
  simp only [State.updateTimer]
  by_cases hc : c = cpu
  · subst hc
    rw [if_pos rfl]
    exact ⟨(hf _).1.trans hsetUp, ((hf _).2 hpending).trans (hpending.symm.trans hsome)⟩
  · rw [if_neg hc]
    exact ⟨hsetUp, hsome⟩

theorem step_armed {cpus : Nat → Bool} {s : State} (h : Armed cpus s) (e : Event) :
    Armed cpus (step nrCpuIds hz s e) := by
  cases e with
  | tick => exact h
  | online cpu =>
    dsimp only [step]
    split
    · exact h
    · exact h
  | offline cpu target =>
    dsimp only [step]
    split
    · intro c
      obtain ⟨hsetUp, hsome⟩ := h c
      dsimp only
      split
      · rename_i hmoved
        rw [hmoved] at hsome
        exact ⟨hsetUp, hsome⟩
      · exact ⟨hsetUp, hsome⟩
    · exact h
  | expire cpu =>
    dsimp only [step]
    split
    · rename_i wheel hwheel
      split
      · exact updateTimer_armed h (fun _ => ⟨rfl, fun _ => rfl⟩) (by rw [hwheel]; rfl)
      · exact h
    · exact h

/-- **Between init and exit the armed timers stay the same**, whatever happens to the CPUs. -/
theorem run_armed {cpus : Nat → Bool} (events : List Event) :
    ∀ s, Armed cpus s → Armed cpus (run nrCpuIds hz s events) := by
  induction events with
  | nil => exact fun _ h => h
  | cons e events ih => exact fun s h => ih _ (step_armed nrCpuIds hz h e)

end

/-! ### A load of the module -/

/-- The CPUs and the events between the load and the unload of the module. -/
structure Life where
  nrCpuIds : Nat
  hz : Nat
  jiffies : Nat
  online : Nat → Bool
  online_lt : ∀ c, online c = true → c < nrCpuIds
  events : List Event

namespace Life
variable (x : Life)

def loaded : State := monitorTimerInit x.nrCpuIds x.hz ⟨x.online, x.jiffies, fun _ => {}, []⟩

def beforeExit : State := run x.nrCpuIds x.hz x.loaded x.events

def unloaded : State := monitorTimerExit x.nrCpuIds x.beforeExit

/-- No timer is pending after the unload, and `del_timer_sync` was called on timers that had been set up. -/
structure Shutdown : Prop where
  noPending : ∀ c, (x.unloaded.cpuTimerData c).timer.pending = none
  delSetUp : ∀ call ∈ x.unloaded.delCalls, call.2 = true

theorem loaded_armed : Armed x.online x.loaded := by
  intro c
  obtain ⟨hin, hout, -, -⟩ := foldl_initCpu x.hz (forEachOnlineCpu x.nrCpuIds x.online)
    ⟨x.online, x.jiffies, fun _ => {}, []⟩
  unfold loaded monitorTimerInit
  by_cases hc : c ∈ forEachOnlineCpu x.nrCpuIds x.online
  · rw [hin c hc, ((mem_forEachOnlineCpu _).1 hc).2]
    exact ⟨rfl, rfl⟩
  · rw [hout c hc]
    have hoff : x.online c = false := by
      by_contra hon
      have hon : x.online c = true := by simpa using hon
      exact hc ((mem_forEachOnlineCpu _).2 ⟨x.online_lt c hon, hon⟩)
    rw [hoff]
    exact ⟨rfl, rfl⟩

theorem step_online_lt {n hz : Nat} {s : State} (h : ∀ c, s.online c = true → c < n) (e : Event) :
    ∀ c, (step n hz s e).online c = true → c < n := by
  intro c hc
  cases e with
  | tick => exact h c hc
  | online cpu =>
    dsimp only [step] at hc
    split at hc
    · rename_i hcpu
      dsimp only at hc
      split at hc
      · rename_i heq
        exact heq ▸ hcpu
      · exact h c hc
    · exact h c hc
  | offline cpu target =>
    dsimp only [step] at hc
    split at hc
    · dsimp only at hc
      split at hc
      · cases hc
      · exact h c hc
    · exact h c hc
  | expire cpu =>
    dsimp only [step] at hc
    split at hc
    · split at hc
      · exact h c hc
      · exact h c hc
    · exact h c hc

theorem beforeExit_online_lt : ∀ c, x.beforeExit.online c = true → c < x.nrCpuIds := by
  have hrun : ∀ (events : List Event) (s : State), (∀ c, s.online c = true → c < x.nrCpuIds) →
      ∀ c, (run x.nrCpuIds x.hz s events).online c = true → c < x.nrCpuIds := by
    intro events
    induction events with
    | nil => exact fun _ h => h
    | cons e events ih => exact fun s h => ih _ (step_online_lt h e)
  refine hrun x.events x.loaded ?_
  have honline : x.loaded.online = x.online := (foldl_initCpu x.hz _ _).2.2.1
  rw [honline]
  exact x.online_lt

/-- `del_timer_sync` was not called before the unload. -/
theorem beforeExit_delCalls : x.beforeExit.delCalls = [] := by
  have hrun : ∀ (events : List Event) (s : State),
      (run x.nrCpuIds x.hz s events).delCalls = s.delCalls := by
    intro events
    induction events with
    | nil => exact fun _ => rfl
    | cons e events ih =>
      intro s
      refine (ih _).trans ?_
      cases e with
      | tick => rfl
      | online cpu => dsimp only [step]; split <;> rfl
      | offline cpu target => dsimp only [step]; split <;> rfl
      | expire cpu =>
        dsimp only [step]
        split
        · split <;> rfl
        · rfl
  exact (hrun x.events x.loaded).trans (foldl_initCpu x.hz _ _).2.2.2

/-- **The shutdown is complete exactly when the CPUs online at the unload are those online at the load.** -/
theorem shutdown_iff : x.Shutdown ↔ x.beforeExit.online = x.online := by
  have harmed := run_armed x.nrCpuIds x.hz x.events x.loaded x.loaded_armed
  have hmem : ∀ c, c ∈ forEachOnlineCpu x.nrCpuIds x.beforeExit.online ↔ x.beforeExit.online c = true :=
    fun c => (mem_forEachOnlineCpu _).trans (and_iff_right_of_imp (x.beforeExit_online_lt c))
  obtain ⟨hpending, hcalls⟩ := foldl_delTimerSync (forEachOnlineCpu x.nrCpuIds x.beforeExit.online)
    x.beforeExit (List.Nodup.filter _ List.nodup_range)
  rw [x.beforeExit_delCalls, List.nil_append] at hcalls
  constructor
  · rintro ⟨hnone, hsetUp⟩
    funext c
    rw [Bool.eq_iff_iff]
    constructor
    · intro hon
      rw [← (harmed c).1]
      refine hsetUp (c, _) ?_
      unfold unloaded monitorTimerExit
      rw [hcalls]
      exact List.mem_map_of_mem ((hmem c).2 hon)
    · intro hon
      by_contra hoff
      have hstill := hnone c
      unfold unloaded monitorTimerExit at hstill
      rw [hpending c, if_neg (mt (hmem c).1 hoff)] at hstill
      have hsome := (harmed c).2.trans hon
      unfold beforeExit at hstill
      rw [hstill] at hsome
      cases hsome
  · intro hsame
    refine ⟨fun c => ?_, fun call hcall => ?_⟩
    · unfold unloaded monitorTimerExit
      rw [hpending c]
      by_cases hon : x.beforeExit.online c = true
      · rw [if_pos ((hmem c).2 hon)]
      · rw [if_neg (mt (hmem c).1 hon), ← Option.not_isSome_iff_eq_none]
        rw [hsame] at hon
        unfold beforeExit
        rwa [(harmed c).2]
    · unfold unloaded monitorTimerExit at hcall
      rw [hcalls, List.mem_map] at hcall
      obtain ⟨c, hc, rfl⟩ := hcall
      have hon := (hmem c).1 hc
      rw [hsame] at hon
      exact (harmed c).1.trans hon

/-- Two CPUs; the second one goes offline. -/
def cpuGone : Life where
  nrCpuIds := 2
  hz := 1000
  jiffies := 0
  online := fun c => decide (c < 2)
  online_lt := fun _ h => of_decide_eq_true h
  events := [.offline 1 0]

/-- Its timer is still pending, on the first CPU, after the unload. -/
theorem cpuGone_not_shutdown : ¬ ∀ x : Life, x.Shutdown := by
  intro h
  have hnone := (h cpuGone).noPending 1
  revert hnone
  decide +kernel

end Life

end KTools.Guest
