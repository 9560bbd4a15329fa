import KTools.Ktime.Lifecycle
import KTools.Ktime.Handlers

/-!
# Records with one armed probe

The tail probe of a record is registered before its head, so a head that the kernel refuses leaves the tail
armed alone. The init function goes on after that, and the hits of the tail report the time since
`start_time`, which is still zero. This is the only way in which a load leaves half of a record
(`LoadInput.noHalfArmed_of_not_stopsAtHead`). Without it, every reported duration starts at a head hit, in
each run of hits where the instructions at a tail are reached through the head
(`LoadInput.armedRight_iff`).
-/

namespace KTools.Ktime
open KTools.Lib

/-! ### The handlers of the registered probes -/

/-- `pre_handler` is set in the registered head probes, and in no tail probe. -/
structure Wired (s : LoadState) : Prop where
  head : ∀ i, (i, Side.head) ∈ s.registered → (s.kpRecords i).headKp.preHandler = true
  tail : ∀ i, (s.kpRecords i).tailKp.preHandler = false

/-- The head probe of record `i` can be registered next. -/
structure Ready (i : Nat) (s : LoadState) : Prop extends Wired s where
  ready : (s.kpRecords i).headKp.preHandler = true

/-- An assignment to a record leaves the `pre_handler` of its probes set or unset. -/
structure KeepsHandlers (f : KprobeRecord → KprobeRecord) : Prop where
  head : ∀ r, r.headKp.preHandler = true → (f r).headKp.preHandler = true
  tail : ∀ r, r.tailKp.preHandler = false → (f r).tailKp.preHandler = false

section
variable {E : LoadState → Prop} {i : Nat} {f : KprobeRecord → KprobeRecord}

theorem updateRecord_wired (hf : KeepsHandlers f) : Keeps Wired (updateRecord i f) := by
  refine Keeps.modify fun s hs => ⟨fun j hj => ?_, fun j => ?_⟩
  · dsimp only
    split
    · exact hf.head _ (hs.head j hj)
    · exact hs.head j hj
  · dsimp only
    split
    · exact hf.tail _ (hs.tail j)
    · exact hs.tail j

theorem updateRecord_ready (hf : KeepsHandlers f) (hhead : ∀ r, (f r).headKp.preHandler = true) :
    Triple E Wired (updateRecord i f) fun _ => Ready i := by
  refine Triple.modify fun s hs => ⟨updateRecord_wired hf s hs, ?_⟩
  simp only [if_true, hhead]

theorem setOk_keepsHandlers (side : Side) : KeepsHandlers fun r => r.setOk side := by
  cases side with
  | head => exact ⟨fun _ h => h, fun _ h => h⟩
  | tail => exact ⟨fun _ h => h, fun _ h => h⟩

theorem registerKprobe_ready (ret : Int) :
    Triple Wired (Ready i) (registerKprobe i .tail ret) fun _ => Ready i := by
  refine Triple.bind (Q := fun _ => Ready i) (Triple.modify fun s hs => ?_) fun _ => ?_
  · refine ⟨⟨fun j hj => ?_, hs.tail⟩, hs.ready⟩
    dsimp only at hj
    split at hj
    · exact hs.head j hj
    · exact hs.head j (by simpa using hj)
  · refine Triple.ite (fun _ => Triple.throw fun _ hs => hs.toWired) fun _ => Triple.modify fun s hs => ?_
    refine ⟨updateRecord_wired (setOk_keepsHandlers .tail) s hs.toWired, ?_⟩
    simp only [if_true, KprobeRecord.setOk]
    exact hs.ready

theorem registerKprobe_wired (ret : Int) :
    Triple Wired (Ready i) (registerKprobe i .head ret) fun _ => Wired := by
  refine Triple.bind (Q := fun _ => Wired) (Triple.modify fun s hs => ⟨fun j hj => ?_, hs.tail⟩) fun _ => ?_
  · dsimp only at hj
    split at hj
    · exact hs.head j hj
    · rcases List.mem_append.1 hj with hj | hj
      · exact hs.head j hj
      · obtain rfl : j = i := by simpa using hj
        exact hs.ready
  · exact Triple.ite (fun _ => Triple.throw fun _ hs => hs)
      fun _ => (updateRecord_wired (setOk_keepsHandlers .head)).triple

end

theorem registerRecord_wired (env : LoadEnv) (m : Mem) (i : Nat) :
    Triple Wired Wired (registerRecord env m i) fun _ => Wired := by
  have hupdate := fun f (hf : KeepsHandlers f) => (updateRecord_wired (i := i) hf).triple
  unfold registerRecord
  refine Triple.bind (hupdate _ ⟨fun _ h => h, fun _ h => h⟩) fun _ => ?_
  cases env.startOffset i with
  | none => exact Triple.throw fun _ h => h
  | some startOffset =>
    refine Triple.bind (hupdate _ ⟨fun _ h => h, fun _ h => h⟩) fun _ => ?_
    cases env.endOffset i with
    | none => exact Triple.throw fun _ h => h
    | some endOffset =>
      refine Triple.bind (hupdate _ ⟨fun _ h => h, fun _ h => h⟩) fun _ =>
        Triple.bind (hupdate _ ⟨fun _ h => h, fun _ h => h⟩) fun _ => ?_
      cases env.time i with
      | none => exact Triple.throw fun _ h => h
      | some time =>
        refine Triple.bind (hupdate _ ⟨fun _ h => h, fun _ h => h⟩) fun _ =>
          Triple.ite (fun _ => ?_) fun _ => ?_
        · refine Triple.bind (updateRecord_ready ⟨fun _ _ => rfl, fun _ h => h⟩ fun _ => rfl) fun _ => ?_
          exact registerKprobe_wired _
        · refine Triple.bind (updateRecord_ready ⟨fun _ _ => rfl, fun _ _ => rfl⟩ fun _ => rfl) fun _ => ?_
          exact (registerKprobe_ready _).bind fun _ => registerKprobe_wired _

/-! ### Hits of the registered probes -/

/-- The kernel calls the handlers of the registered probes only. -/
def hitRegistered (registered : List (Nat × Side)) (records : KpRecords) (e : Event) :
    KpRecords × Option Report :=
  if e.kp ∈ registered then hit records e else (records, none)

def runRegistered (registered : List (Nat × Side)) (records : KpRecords) (trace : List Event) : KpRecords :=
  trace.foldl (fun records e => (hitRegistered registered records e).1) records

/-- The instructions of a record are reached through its head: before a hit after an instruction of the
record there is a hit before the instruction at its head. -/
def HeadsFirst (trace : List Event) : Prop :=
  ∀ pre e post, trace = pre ++ e :: post → e.phase = .post → ∃ h ∈ pre, h.isHead e.kp.1 = true

section
variable {registered : List (Nat × Side)} {records : KpRecords} {id : Nat}

/-- A report is the time since the `start_time` of the record that was hit. -/
theorem hitRegistered_report {e : Event} {report : Report}
    (h : (hitRegistered registered records e).2 = some report) :
    e.kp ∈ registered ∧ e.phase = .post ∧ report.id = e.kp.1 ∧
      report.time = e.now - (records e.kp.1).startTime := by
  obtain ⟨⟨i, side⟩, phase, current, now, regs⟩ := e
  unfold hitRegistered at h
  split at h
  · rename_i hreg
    cases phase with
    | pre => cases h
    | post =>
      simp only [hit] at h
      split at h
      · simp only [handlerPost] at h
        split at h
        · cases h
        · rename_i j hj
          obtain rfl : i = j := containerOf_eq_some hj
          simp only [postReport] at h
          split at h
          · obtain rfl := Option.some.inj h
            exact ⟨hreg, rfl, rfl, rfl⟩
          · cases h
      · cases h
  · cases h

theorem hitRegistered_startTime (hhead : (records id).headKp.preHandler = true)
    (hreg : (id, Side.head) ∈ registered) (e : Event) :
    SameSetup (records id) ((hitRegistered registered records e).1 id) ∧
      ((hitRegistered registered records e).1 id).startTime =
        if e.isHead id then e.now else (records id).startTime := by
  unfold hitRegistered
  by_cases hkp : e.kp ∈ registered
  · rw [if_pos hkp]
    exact hit_apply hhead e
  · have hother : ¬ e.isHead id = true := by
      intro h
      simp only [Event.isHead, Bool.and_eq_true, beq_iff_eq] at h
      exact hkp (h.1 ▸ hreg)
    rw [if_neg hkp, if_neg hother]
    exact ⟨SameSetup.refl _, rfl⟩

/-- In a run, `start_time` of a record with an armed head is the time of the latest head hit. -/
theorem runRegistered_startTime (hhead : (records id).headKp.preHandler = true)
    (hreg : (id, Side.head) ∈ registered) (trace : List Event) :
    SameSetup (records id) (runRegistered registered records trace id) ∧
      (runRegistered registered records trace id).startTime =
        ((lastHead id trace).map Event.now).getD (records id).startTime := by
  induction trace using List.reverseRecOn with
  | nil => exact ⟨SameSetup.refl _, rfl⟩
  | append_singleton pre e ih =>
    obtain ⟨hsetup, hstart⟩ := ih
    have hhead' : (runRegistered registered records pre id).headKp.preHandler = true :=
      hsetup.headKp ▸ hhead
    obtain ⟨hsetup', hstart'⟩ := hitRegistered_startTime hhead' hreg e
    have hconcat : runRegistered registered records (pre ++ [e]) =
        (hitRegistered registered (runRegistered registered records pre) e).1 := List.foldl_append
    rw [hconcat, lastHead_concat]
    refine ⟨hsetup.trans hsetup', ?_⟩
    rw [hstart', hstart]
    by_cases he : e.isHead id = true
    · simp [he]
    · simp [he]

/-- A head hit of a trace, if there is one, makes the latest one exist. -/
theorem exists_lastHead {pre : List Event} (h : ∃ e ∈ pre, e.isHead id = true) :
    ∃ e ∈ pre, e.isHead id = true ∧ lastHead id pre = some e := by
  obtain ⟨e, he, hid⟩ := h
  have hne : pre.filter (Event.isHead id) ≠ [] :=
    List.ne_nil_of_mem (List.mem_filter.2 ⟨he, hid⟩)
  have hlast := List.getLast?_eq_getLast_of_ne_nil hne
  obtain ⟨hmem, hhead⟩ := List.mem_filter.1 (List.getLast_mem hne)
  exact ⟨_, hmem, hhead, hlast⟩

end

/-! ### A load and the runs after it -/

namespace LoadInput

/-- `register_record_kprobes` returns a negative value. -/
def RegisterFails (x : LoadInput) : Prop := x.env.Reads ∧ ∃ e s, x.registerRun = .error e s

/-- No record with two probes has exactly one of them registered. -/
def NoHalfArmed (x : LoadInput) : Prop :=
  ∀ i, ¬ x.env.Single i →
    ((i, Side.head) ∈ x.load.probes.registered ↔ (i, Side.tail) ∈ x.load.probes.registered)

/-- Every reported duration starts at a hit of the armed head of the record. -/
def StartsAtHead (x : LoadInput) (trace : List Event) : Prop :=
  ∀ pre e post report, trace = pre ++ e :: post →
    (hitRegistered x.load.probes.registered
      (runRegistered x.load.probes.registered x.load.probes.kpRecords pre) e).2 = some report →
    (report.id, Side.head) ∈ x.load.probes.registered ∧
      ∃ h ∈ pre, h.isHead report.id = true ∧ report.time = e.now - h.now

/-- The kernel refuses the head probe of a record with two probes, and has taken its tail probe. -/
def StopsAtHead (x : LoadInput) : Prop :=
  x.env.Reads ∧ ∃ k < x.totRecords, (∀ j < k, x.env.Completes j) ∧ x.env.HalfArms k

theorem halfArms_not_completes {env : LoadEnv} {k : Nat} (h : env.HalfArms k) : ¬ env.Completes k :=
  fun hc => absurd hc.2.2 (by have := h.2.2.2; omega)

/-- A load that does not stop at a head leaves no half-armed record. -/
theorem noHalfArmed_of_not_stopsAtHead {x : LoadInput} (h : ¬ x.StopsAtHead) : x.NoHalfArmed := by
  intro i hsingle
  have hbelow : ∀ n, (i, Side.head) ∈ x.env.probesBelow n ↔ (i, Side.tail) ∈ x.env.probesBelow n := by
    intro n
    simp [LoadEnv.mem_probesBelow, hsingle]
  by_cases hreads : x.env.Reads
  · rw [load_registered hreads]
    rcases x.registerRun_cases with ⟨-, -, hs⟩ | ⟨-, -, k, hk, hbefore, -, hs⟩
    · unfold Registered at hs
      rw [hs, hbelow]
    · have hleft : x.env.left k = [] := if_neg fun hhalf => h ⟨hreads, k, hk, hbefore, hhalf⟩
      unfold Registered at hs
      rw [hs, hleft, List.append_nil, hbelow]
  · rw [(load_of_not_reads hreads).2]
    exact iff_of_false List.not_mem_nil List.not_mem_nil

theorem halfArmed_of_stopsAtHead {x : LoadInput} (h : x.StopsAtHead) :
    x.RegisterFails ∧ ¬ x.NoHalfArmed := by
  obtain ⟨hreads, k, hk, hbefore, hhalf⟩ := h
  rcases x.registerRun_cases with ⟨-, hall, -⟩ | ⟨e, hrun, k', -, hstop⟩
  · exact absurd (hall k hk) (halfArms_not_completes hhalf)
  · refine ⟨⟨hreads, e, _, hrun⟩, fun hno => ?_⟩
    obtain rfl : k' = k := by
      rcases Nat.lt_trichotomy k' k with hlt | heq | hlt
      · exact absurd (hbefore k' hlt) hstop.stop
      · exact heq
      · exact absurd (hstop.before k hlt) (halfArms_not_completes hhalf)
    have hreg : x.load.probes.registered = x.env.probesBelow k' ++ x.env.left k' :=
      (load_registered hreads).trans hstop.registered
    have htail : (k', Side.tail) ∈ x.load.probes.registered := by
      rw [hreg]
      exact List.mem_append_right _ ((x.env.mem_left k').2 ⟨hhalf, rfl⟩)
    have hhead := (hno k' hhalf.2.1).2 htail
    rw [hreg, List.mem_append, LoadEnv.mem_probesBelow, LoadEnv.mem_left] at hhead
    rcases hhead with ⟨hlt, -⟩ | ⟨-, heq⟩
    · exact absurd hlt (Nat.lt_irrefl _)
    · cases heq

theorem wired_load (x : LoadInput) : Wired x.load.probes := by
  have hzero : Wired .zero := ⟨fun i hi => absurd hi List.not_mem_nil, fun _ => rfl⟩
  by_cases hreads : x.env.Reads
  · rw [(load_of_reads hreads).2]
    refine displayAllKprobes_keeps_of (fun _ _ h => ⟨h.head, h.tail⟩) _ _ ?_
    exact (Triple.countedLoop (I := fun _ => Wired) _ _ fun i _ _ => registerRecord_wired _ _ i).ends
      (fun _ h => h) (fun _ _ h => h) hzero
  · rw [(load_of_not_reads hreads).2]
    exact hzero

theorem startsAtHead_of_noHalfArmed {x : LoadInput} (h : x.NoHalfArmed) {trace : List Event}
    (htrace : HeadsFirst trace) : x.StartsAtHead trace := by
  intro pre e post report hsplit hreport
  obtain ⟨hkp, hphase, hid, htime⟩ := hitRegistered_report hreport
  have hhead : (e.kp.1, Side.head) ∈ x.load.probes.registered := by
    cases hside : e.kp.2 with
    | head => exact hside ▸ hkp
    | tail =>
      have hsingle : ¬ x.env.Single e.kp.1 :=
        (x.env.mem_probesBelow.1 (x.accounted.sublist.subset hkp)).2 hside
      exact (h _ hsingle).2 (hside ▸ hkp)
  obtain ⟨first, hmem, hisHead, hlast⟩ := exists_lastHead (htrace pre e post hsplit hphase)
  obtain ⟨-, hstart⟩ := runRegistered_startTime (x.wired_load.head _ hhead) hhead pre
  rw [hlast] at hstart
  refine ⟨hid ▸ hhead, first, hmem, hid ▸ hisHead, ?_⟩
  rw [htime, hstart]
  rfl

/-- A failed registration leaves no record half armed, and the reports of every run in which the records are
entered through their heads start at a head hit. -/
structure ArmedRight (x : LoadInput) : Prop where
  fails : x.RegisterFails → x.NoHalfArmed
  starts : ∀ trace, HeadsFirst trace → x.StartsAtHead trace

/-- **The records are armed as a whole exactly when the load does not stop between the two probes of one.** -/
theorem armedRight_iff (x : LoadInput) : x.ArmedRight ↔ ¬ x.StopsAtHead := by
  constructor
  · intro h hstops
    obtain ⟨hfails, hhalf⟩ := halfArmed_of_stopsAtHead hstops
    exact hhalf (h.fails hfails)
  · intro h
    have hno := noHalfArmed_of_not_stopsAtHead h
    exact ⟨fun _ => hno, fun _ htrace => startsAtHead_of_noHalfArmed hno htrace⟩

/-- `f 0 9 NULL 00` in a file that is read; the kernel refuses the head probe with `-EINVAL`. -/
def refusedHead : LoadInput where
  fileName := [102]
  fileName_nul := by decide
  fileName_length := by decide
  content := [102, 32, 48, 32, 57, 32, 78, 85, 76, 76, 32, 48, 48, 10]
  content_length := by decide
  env := ⟨(true, true, true), true, false, fun _ => some 0, fun _ => some 9, fun _ => some 0, fun _ => 0,
    fun _ => -22⟩

/-- The tail of the record is left armed alone: a task that enters at 900 and reaches the tail at 1000 is
reported with the duration 1000. -/
theorem refusedHead_starts_unset :
    ¬ ∀ x : LoadInput, (x.RegisterFails → x.NoHalfArmed) ∧ ∀ trace, x.StartsAtHead trace := by
  intro h
  have hstart := (h refusedHead).2
    [⟨(0, .head), .pre, ⟨1, []⟩, 900, ⟨0, 0, 0, 0⟩⟩, ⟨(0, .tail), .post, ⟨1, []⟩, 1000, ⟨0, 0, 0, 0⟩⟩]
    [_] _ [] ⟨[], 0, 1000, some (0, 0, 0, 0)⟩ rfl (by decide +kernel)
  exact absurd hstart.1 (by decide +kernel)

end LoadInput

end KTools.Ktime
