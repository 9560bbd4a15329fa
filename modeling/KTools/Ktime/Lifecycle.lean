import KTools.Ktime.Safety
import KTools.Lib.Triple
import Mathlib.Data.List.Nodup

/-!
# Registered probes and their flags

`register_record_kprobes` stops at the first record whose numbers do not parse or whose probes the kernel
refuses. What it has registered by then is a function of the kernel's answers: all probes of the records
before, and the tail probe of the record itself when the kernel refused its head only
(`registerRecordKprobes_registered`). A flag is set exactly with its probe (`Synced`), so that the unload,
which goes by the flags, meets every registered probe once (`LoadInput.balanced`).
-/

namespace KTools.Ktime
open KTools.Lib

/-! ### The kernel's answers to one record -/

namespace LoadEnv
variable (env : LoadEnv) (i : Nat)

/-- The record measures the whole function: it has a head probe only. -/
def Single : Prop := env.startOffset i = some (-1) ∧ env.endOffset i = some (-1)

instance : Decidable (env.Single i) := inferInstanceAs (Decidable (_ ∧ _))

/-- The three numbers of the record are parsed. -/
def Parses : Prop :=
  (env.startOffset i).isSome = true ∧ (env.endOffset i).isSome = true ∧ (env.time i).isSome = true

instance : Decidable (env.Parses i) := inferInstanceAs (Decidable (_ ∧ _))

/-- The probes of a record in the order in which they are registered. -/
def probes : List (Nat × Side) :=
  if env.Single i then [(i, .head)] else [(i, .tail), (i, .head)]

/-- The loop goes on after the record. -/
def Completes : Prop :=
  env.Parses i ∧ (¬ env.Single i → 0 ≤ env.registerTail i) ∧ 0 ≤ env.registerHead i

/-- The kernel takes the tail probe of the record and refuses its head probe. -/
def HalfArms : Prop :=
  env.Parses i ∧ ¬ env.Single i ∧ 0 ≤ env.registerTail i ∧ env.registerHead i < 0

instance : Decidable (env.HalfArms i) := inferInstanceAs (Decidable (_ ∧ _))

/-- What a record that stops the loop leaves registered. -/
def left : List (Nat × Side) := if env.HalfArms i then [(i, .tail)] else []

/-- The probes of the first `n` records. -/
def probesBelow (n : Nat) : List (Nat × Side) := (List.range n).flatMap env.probes

theorem probesBelow_succ (n : Nat) : env.probesBelow (n + 1) = env.probesBelow n ++ env.probes n := by
  simp only [probesBelow, List.range_succ, List.flatMap_append, List.flatMap_singleton]

theorem mem_probes {p : Nat × Side} :
    p ∈ env.probes i ↔ p = (i, .head) ∨ (¬ env.Single i ∧ p = (i, .tail)) := by
  unfold probes
  by_cases h : env.Single i
  · simp [h]
  · simp [h, or_comm]

theorem mem_probesBelow {n : Nat} {p : Nat × Side} :
    p ∈ env.probesBelow n ↔ p.1 < n ∧ (p.2 = .tail → ¬ env.Single p.1) := by
  obtain ⟨j, side⟩ := p
  simp only [probesBelow, List.mem_flatMap, List.mem_range, mem_probes, Prod.mk.injEq]
  constructor
  · rintro ⟨k, hk, ⟨rfl, rfl⟩ | ⟨hsingle, rfl, rfl⟩⟩
    · exact ⟨hk, fun h => nomatch h⟩
    · exact ⟨hk, fun _ => hsingle⟩
  · rintro ⟨hj, hsingle⟩
    refine ⟨j, hj, ?_⟩
    cases side with
    | head => exact Or.inl ⟨rfl, rfl⟩
    | tail => exact Or.inr ⟨hsingle rfl, rfl, rfl⟩

theorem mem_left {p : Nat × Side} : p ∈ env.left i ↔ env.HalfArms i ∧ p = (i, .tail) := by
  unfold left
  by_cases h : env.HalfArms i
  · simp [h]
  · simp [h]

theorem left_sublist : (env.left i).Sublist (env.probes i) := by
  unfold left
  by_cases h : env.HalfArms i
  · rw [if_pos h, probes, if_neg h.2.1]
    exact List.Sublist.cons_cons _ (List.nil_sublist _)
  · rw [if_neg h]
    exact List.nil_sublist _

end LoadEnv

/-! ### What the loop registers -/

/-- The registered probes are the list `l`. -/
def Registered (l : List (Nat × Side)) (s : LoadState) : Prop := s.registered = l

theorem updateRecord_registered {E : LoadState → Prop} (l : List (Nat × Side)) (i : Nat)
    (f : KprobeRecord → KprobeRecord) :
    Triple E (Registered l) (updateRecord i f) fun _ => Registered l :=
  Triple.modify fun _ h => h

theorem registerKprobe_registered {E : LoadState → Prop} {l : List (Nat × Side)} {i : Nat} {side : Side}
    {ret : Int} (hE : ret < 0 → ∀ s, Registered l s → E s) :
    Triple E (Registered l) (registerKprobe i side ret) fun _ s =>
      0 ≤ ret ∧ Registered (l ++ [(i, side)]) s := by
  by_cases hret : ret < 0
  · refine Triple.bind (Q := fun _ => Registered l) (Triple.modify fun s hs => ?_) fun _ => ?_
    · simpa only [Registered, if_pos hret] using hs
    · exact Triple.ite (fun _ => Triple.throw (hE hret)) fun h => absurd hret h
  · refine Triple.bind (Q := fun _ => Registered (l ++ [(i, side)])) (Triple.modify fun s hs => ?_)
      fun _ => ?_
    · simp only [Registered] at hs
      simp only [Registered, if_neg hret, hs]
    · refine Triple.ite (fun h => absurd h hret) fun _ => ?_
      exact (updateRecord_registered _ _ _).post fun _ _ hs => ⟨Int.not_lt.1 hret, hs⟩

/-- The body of the loop registers the probes of its record, or stops. -/
theorem registerRecord_registered (env : LoadEnv) (m : Mem) (l : List (Nat × Side)) (i : Nat) :
    Triple (fun s => ¬ env.Completes i ∧ Registered (l ++ env.left i) s) (Registered l)
      (registerRecord env m i) fun _ s => env.Completes i ∧ Registered (l ++ env.probes i) s := by
  have hupdate := fun E f => updateRecord_registered (E := E) l i f
  have hstop : ¬ env.Completes i → ¬ env.HalfArms i → ∀ s, Registered l s →
      ¬ env.Completes i ∧ Registered (l ++ env.left i) s := by
    intro hstop hhalf s hs
    rw [LoadEnv.left, if_neg hhalf, List.append_nil]
    exact ⟨hstop, hs⟩
  unfold registerRecord
  refine (hupdate _ _).bind fun _ => ?_
  cases hstart : env.startOffset i with
  | none =>
    have hparse : ¬ env.Parses i := fun h => by simpa [hstart] using h.1
    exact Triple.throw (hstop (fun h => hparse h.1) fun h => hparse h.1)
  | some startOffset =>
    refine (hupdate _ _).bind fun _ => ?_
    cases hend : env.endOffset i with
    | none =>
      have hparse : ¬ env.Parses i := fun h => by simpa [hend] using h.2.1
      exact Triple.throw (hstop (fun h => hparse h.1) fun h => hparse h.1)
    | some endOffset =>
      refine (hupdate _ _).bind fun _ => (hupdate _ _).bind fun _ => ?_
      cases htime : env.time i with
      | none =>
        have hparse : ¬ env.Parses i := fun h => by simpa [htime] using h.2.2
        exact Triple.throw (hstop (fun h => hparse h.1) fun h => hparse h.1)
      | some time =>
        have hparse : env.Parses i := by simp [LoadEnv.Parses, hstart, hend, htime]
        have hsingle : env.Single i ↔ startOffset = endOffset ∧ startOffset = -1 := by
          simp only [LoadEnv.Single, hstart, hend, Option.some.injEq]
          constructor
          · rintro ⟨rfl, rfl⟩
            exact ⟨rfl, rfl⟩
          · rintro ⟨rfl, rfl⟩
            exact ⟨rfl, rfl⟩
        refine (hupdate _ _).bind fun _ => Triple.ite (fun hwhole => ?_) fun hwhole => ?_
        · have h := hsingle.2 hwhole
          refine (hupdate _ _).bind fun _ => ?_
          refine (registerKprobe_registered fun hret => ?_).post fun _ s hs => ?_
          · refine hstop (fun hc => ?_) fun hhalf => hhalf.2.1 h
            exact absurd hc.2.2 (by omega)
          · rw [LoadEnv.probes, if_pos h]
            exact ⟨⟨hparse, fun hn => absurd h hn, hs.1⟩, hs.2⟩
        · have h : ¬ env.Single i := fun h => hwhole (hsingle.1 h)
          refine (hupdate _ _).bind fun _ => ?_
          refine (registerKprobe_registered fun hret => ?_).bind fun _ => ?_
          · refine hstop (fun hc => ?_) fun hhalf => ?_
            · exact absurd (hc.2.1 h) (by omega)
            · exact absurd hhalf.2.2.1 (by omega)
          · -- the tail is registered from here on, whatever the kernel says about the head
            intro s ⟨htail, hs⟩
            refine (registerKprobe_registered fun hret s hs => ?_).post (fun _ s hs => ?_) s hs
            · have hhalf : env.HalfArms i := ⟨hparse, h, htail, hret⟩
              rw [LoadEnv.left, if_pos hhalf]
              exact ⟨fun hc => absurd hc.2.2 (by omega), hs⟩
            · rw [LoadEnv.probes, if_neg h]
              refine ⟨⟨hparse, fun _ => htail, hs.1⟩, ?_⟩
              simpa only [List.append_assoc, List.singleton_append] using hs.2

/-- The loop stopped at record `k`. -/
structure StoppedAt (env : LoadEnv) (k : Nat) (s : LoadState) : Prop where
  before : ∀ j < k, env.Completes j
  stop : ¬ env.Completes k
  registered : Registered (env.probesBelow k ++ env.left k) s

/-- **What `register_record_kprobes` leaves registered.** It returns when every record completes; else it
stops at the first one that does not. -/
theorem registerRecordKprobes_registered (env : LoadEnv) (m : Mem) (totRecords : Nat) :
    Triple (fun s => ∃ k < totRecords, StoppedAt env k s) (Registered [])
      (registerRecordKprobes env m totRecords) fun _ s =>
        (∀ j < totRecords, env.Completes j) ∧ Registered (env.probesBelow totRecords) s := by
  have hloop := Triple.countedLoop (E := fun s => ∃ k < totRecords, StoppedAt env k s)
    (I := fun i s => (∀ j < i, env.Completes j) ∧ Registered (env.probesBelow i) s)
    (f := registerRecord env m) totRecords 0 fun i _ hi => ?_
  · rw [Nat.zero_add] at hloop
    exact hloop.pre fun s hs => ⟨fun j hj => absurd hj (Nat.not_lt_zero j), hs⟩
  · rintro s ⟨hbefore, hs⟩
    have hbody := registerRecord_registered env m (env.probesBelow i) i s hs
    cases hrun : registerRecord env m i s with
    | ok a s' =>
      rw [hrun] at hbody
      refine ⟨fun j hj => ?_, ?_⟩
      · rcases Nat.lt_succ_iff_lt_or_eq.1 hj with hj | rfl
        · exact hbefore j hj
        · exact hbody.1
      · rw [env.probesBelow_succ]
        exact hbody.2
    | error e s' =>
      rw [hrun] at hbody
      exact ⟨i, by omega, hbefore, hbody.1, hbody.2⟩

theorem StoppedAt.sublist {env : LoadEnv} {k : Nat} {s : LoadState} (h : StoppedAt env k s) :
    s.registered.Sublist (env.probesBelow (k + 1)) := by
  rw [h.registered, env.probesBelow_succ]
  exact (env.left_sublist k).append_left _

/-! ### The flags -/

def KprobeRecord.ok (r : KprobeRecord) : Side → Bool
  | .head => r.headOk
  | .tail => r.tailOk

/-- A probe is registered exactly when its flag is set. -/
def Synced (s : LoadState) : Prop := ∀ p, p ∈ s.registered ↔ (s.kpRecords p.1).ok p.2 = true

theorem KprobeRecord.ok_setOk (r : KprobeRecord) (side other : Side) :
    (r.setOk side).ok other = if other = side then true else r.ok other := by
  cases side with
  | head => cases other <;> rfl
  | tail => cases other <;> rfl

theorem updateRecord_synced (i : Nat) {f : KprobeRecord → KprobeRecord}
    (hf : ∀ r side, (f r).ok side = r.ok side) : Keeps Synced (updateRecord i f) := by
  refine Keeps.modify fun s hs p => ?_
  rw [hs p]
  by_cases hp : p.1 = i
  · simp only [if_pos hp, hf]
  · simp only [if_neg hp]

theorem registerKprobe_synced (i : Nat) (side : Side) (ret : Int) :
    Keeps Synced (registerKprobe i side ret) := by
  intro s hs
  unfold registerKprobe
  rw [ends_modify_bind, ends_ite]
  by_cases hret : ret < 0
  · rw [if_pos hret, ends_throw]
    intro p
    simpa only [if_pos hret] using hs p
  · rw [if_neg hret, updateRecord, ends_modify]
    rintro ⟨j, other⟩
    simp only [if_neg hret, List.mem_append, List.mem_singleton, hs (j, other), Prod.mk.injEq]
    by_cases hj : j = i
    · subst hj
      rw [if_pos rfl, KprobeRecord.ok_setOk]
      by_cases hother : other = side
      · simp [hother]
      · simp [hother]
    · simp [hj]

theorem registerRecord_synced (env : LoadEnv) (m : Mem) (i : Nat) :
    Keeps Synced (registerRecord env m i) := by
  have hsame : ∀ f : KprobeRecord → KprobeRecord, (∀ r, (f r).headOk = r.headOk) →
      (∀ r, (f r).tailOk = r.tailOk) → ∀ r side, (f r).ok side = r.ok side := by
    intro f hhead htail r side
    cases side with
    | head => exact hhead r
    | tail => exact htail r
  have hupdate := fun f hhead htail => updateRecord_synced i (hsame f hhead htail)
  have hregister := fun side ret => registerKprobe_synced i side ret
  unfold registerRecord
  refine Keeps.bind (hupdate _ (fun _ => rfl) fun _ => rfl) fun _ => ?_
  cases env.startOffset i with
  | none => exact Keeps.throw _
  | some startOffset =>
    refine Keeps.bind (hupdate _ (fun _ => rfl) fun _ => rfl) fun _ => ?_
    cases env.endOffset i with
    | none => exact Keeps.throw _
    | some endOffset =>
      refine Keeps.bind (hupdate _ (fun _ => rfl) fun _ => rfl) fun _ =>
        Keeps.bind (hupdate _ (fun _ => rfl) fun _ => rfl) fun _ => ?_
      cases env.time i with
      | none => exact Keeps.throw _
      | some time =>
        refine Keeps.bind (hupdate _ (fun _ => rfl) fun _ => rfl) fun _ => Keeps.ite ?_ ?_
        · exact Keeps.bind (hupdate _ (fun _ => rfl) fun _ => rfl) fun _ => hregister _ _
        · exact Keeps.bind (hupdate _ (fun _ => rfl) fun _ => rfl) fun _ =>
            Keeps.bind (hregister _ _) fun _ => hregister _ _

/-! ### The unload -/

/-- The probes of a record whose flag is set, head first. -/
def KprobeRecord.okProbes (r : KprobeRecord) (i : Nat) : List (Nat × Side) :=
  (if r.headOk = true then [(i, Side.head)] else []) ++ if r.tailOk = true then [(i, Side.tail)] else []

theorem KprobeRecord.mem_okProbes {r : KprobeRecord} {i : Nat} {p : Nat × Side} :
    p ∈ r.okProbes i ↔ p.1 = i ∧ r.ok p.2 = true := by
  obtain ⟨j, side⟩ := p
  unfold okProbes
  cases side with
  | head => cases hhead : r.headOk <;> cases r.tailOk <;> simp [KprobeRecord.ok, hhead]
  | tail => cases r.headOk <;> cases htail : r.tailOk <;> simp [KprobeRecord.ok, htail]

theorem KprobeRecord.nodup_okProbes (r : KprobeRecord) (i : Nat) : (r.okProbes i).Nodup := by
  unfold okProbes
  cases r.headOk <;> cases r.tailOk <;> simp

/-- The calls were the ones on `l`, and the kernel has forgotten these probes. -/
structure Unregistered (registered l : List (Nat × Side)) (s : UnloadState) : Prop where
  calls : s.calls = l
  registered : ∀ p, p ∈ s.registered ↔ p ∈ registered ∧ p ∉ l

theorem unregisterKprobe_unregistered {E : UnloadState → Prop} (registered l : List (Nat × Side))
    (ok : Bool) (kp : Nat × Side) :
    Triple E (Unregistered registered l) (unregisterKprobe ok kp) fun _ =>
      Unregistered registered (l ++ if ok = true then [kp] else []) := by
  refine Triple.ite (fun hok => Triple.modify fun s hs => ?_) fun hok => Triple.pure fun s hs => ?_
  · rw [if_pos hok]
    refine ⟨by rw [hs.calls], fun p => ?_⟩
    simp only [List.mem_filter, hs.registered p, List.mem_append, List.mem_singleton, not_or,
      decide_eq_true_eq, and_assoc, ne_eq]
  · rwa [if_neg hok, List.append_nil]

/-- **The unload calls `unregister_kprobe` by the flags**, record by record. -/
theorem unregisterRecordKprobes_unregistered (kpRecords : Nat → KprobeRecord)
    (registered : List (Nat × Side)) (totRecords : Nat) :
    Triple (fun _ => False) (Unregistered registered [])
      (unregisterRecordKprobes kpRecords totRecords) fun _ =>
        Unregistered registered ((List.range totRecords).flatMap fun i => (kpRecords i).okProbes i) := by
  have hloop := Triple.countedLoop (E := fun _ : UnloadState => False)
    (I := fun n => Unregistered registered ((List.range n).flatMap fun i => (kpRecords i).okProbes i))
    (f := unregisterRecord kpRecords) totRecords 0 fun i _ _ => ?_
  · rwa [Nat.zero_add] at hloop
  · refine (unregisterKprobe_unregistered _ _ _ _).bind fun _ => ?_
    refine (unregisterKprobe_unregistered _ _ _ _).post fun _ s hs => ?_
    rwa [List.range_succ, List.flatMap_append, List.flatMap_singleton, KprobeRecord.okProbes,
      ← List.append_assoc]

/-! ### A load and its unload -/

namespace LoadInput

def unload (x : LoadInput) : UnloadState := ktimeSnoopExitModule x.load

/-- The flags are the registered probes, and the unload meets each of them once. -/
structure Balanced (x : LoadInput) : Prop where
  flags : ∀ i side, (i, side) ∈ x.load.probes.registered ↔
    (x.load.probes.kpRecords i).ok side = true
  unregister : ∀ p, x.unload.calls.count p = if p ∈ x.load.probes.registered then 1 else 0
  clear : x.unload.registered = []

/-- Where the load left the registered probes: with their flags, on the first records. -/
structure Accounted (x : LoadInput) : Prop where
  synced : Synced x.load.probes
  sublist : x.load.probes.registered.Sublist (x.env.probesBelow x.load.parse.recordCurr)

theorem displayAllKprobes_keeps_of {I : LoadState → Prop}
    (hI : ∀ s accesses, I s → I { s with kpAccesses := accesses }) (n : Nat) :
    Keeps I (displayAllKprobes n) :=
  Keeps.countedLoop n 0 fun _ _ _ => Keeps.modify fun s h => hI s _ h

theorem probesBelow_mono (env : LoadEnv) {k n : Nat} (h : k ≤ n) :
    (env.probesBelow k).Sublist (env.probesBelow n) := by
  induction h with
  | refl => exact List.Sublist.refl _
  | step _ ih =>
    rw [env.probesBelow_succ]
    exact ih.trans (List.sublist_append_left _ _)

/-- `tot_records`, and the run of `register_record_kprobes`, for the file of the load. -/
def totRecords (x : LoadInput) : Nat := (processRecord (bufOf x.content) x.content.length).recordCurr

def registerRun (x : LoadInput) : EStateM.Result Int LoadState PUnit :=
  registerRecordKprobes x.env (processRecord (bufOf x.content) x.content.length).allRecords x.totRecords .zero

/-- The loop returns with all probes registered, or it stopped at a record. -/
theorem registerRun_cases (x : LoadInput) :
    (x.registerRun = .ok ⟨⟩ x.registered ∧ (∀ j < x.totRecords, x.env.Completes j) ∧
        Registered (x.env.probesBelow x.totRecords) x.registered) ∨
      ∃ e, x.registerRun = .error e x.registered ∧ ∃ k < x.totRecords, StoppedAt x.env k x.registered := by
  have hempty : Registered [] .zero := rfl
  have hend := registerRecordKprobes_registered x.env
    (processRecord (bufOf x.content) x.content.length).allRecords x.totRecords .zero hempty
  have hrun : x.registered = finalState (fun _ => x.registerRun) LoadState.zero := rfl
  rw [hrun]
  unfold registerRun finalState
  split at hend
  · rename_i a s hok
    exact Or.inl ⟨by simp only [hok], by simpa only [hok] using hend⟩
  · rename_i e s herr
    exact Or.inr ⟨e, by simp only [herr], by simpa only [herr] using hend⟩

theorem load_registered {x : LoadInput} (h : x.env.Reads) :
    x.load.probes.registered = x.registered.registered := by
  rw [(load_of_reads h).2]
  exact displayAllKprobes_keeps_of (I := fun s => s.registered = x.registered.registered)
    (fun _ _ hs => hs) _ _ rfl

theorem accounted (x : LoadInput) : x.Accounted := by
  have hzero : Synced .zero := by
    rintro ⟨i, side⟩
    cases side <;> simp [LoadState.zero, KprobeRecord.ok]
  by_cases hreads : x.env.Reads
  · obtain ⟨hparse, hprobes⟩ := load_of_reads hreads
    constructor
    · rw [hprobes]
      refine displayAllKprobes_keeps_of (I := Synced) (fun _ _ h => h) _ _ ?_
      exact Keeps.countedLoop _ _ (fun i _ _ => registerRecord_synced _ _ i) _ hzero
    · rw [load_registered hreads, hparse]
      rcases x.registerRun_cases with ⟨-, -, hs⟩ | ⟨-, -, k, hk, hs⟩
      · have hall : x.registered.registered = x.env.probesBelow x.totRecords := hs
        exact hall ▸ List.Sublist.refl _
      · exact hs.sublist.trans (probesBelow_mono _ hk)
  · obtain ⟨-, hprobes⟩ := load_of_not_reads hreads
    constructor
    · rwa [hprobes]
    · rw [hprobes]
      exact List.nil_sublist _

/-- The unload of a load, with its calls read off the flags. -/
theorem unload_unregistered (x : LoadInput) :
    Unregistered x.load.probes.registered
      ((List.range x.load.parse.recordCurr).flatMap fun i => (x.load.probes.kpRecords i).okProbes i)
      x.unload := by
  refine (unregisterRecordKprobes_unregistered _ _ _).ends (fun _ h => h.elim) (fun _ _ h => h) ?_
  exact ⟨rfl, fun p => by simp⟩

/-- **After a load a probe is registered exactly when its flag is set**, whatever the kernel answered, and the
unload calls `unregister_kprobe` once on every registered probe and on no other. -/
theorem balanced (x : LoadInput) : x.Balanced := by
  obtain ⟨hsynced, hsub⟩ := x.accounted
  obtain ⟨hcalls, hregistered⟩ := x.unload_unregistered
  have hmem : ∀ p, p ∈ x.unload.calls ↔ p ∈ x.load.probes.registered := by
    intro p
    simp only [hcalls, List.mem_flatMap, List.mem_range, KprobeRecord.mem_okProbes]
    constructor
    · rintro ⟨i, -, rfl, hok⟩
      exact (hsynced p).2 hok
    · intro hp
      exact ⟨p.1, ((x.env.mem_probesBelow).1 (hsub.subset hp)).1, rfl, (hsynced p).1 hp⟩
  have hnodup : x.unload.calls.Nodup := by
    rw [hcalls]
    refine List.nodup_flatMap.2 ⟨fun i _ => KprobeRecord.nodup_okProbes _ i, ?_⟩
    refine List.nodup_range.imp fun {i j} hij p hp hp' => ?_
    exact hij ((KprobeRecord.mem_okProbes.1 hp).1.symm.trans (KprobeRecord.mem_okProbes.1 hp').1)
  refine ⟨fun i side => hsynced (i, side), fun p => ?_, ?_⟩
  · rw [hnodup.count]
    simp only [hmem]
  · refine List.eq_nil_iff_forall_not_mem.2 fun p hp => ?_
    obtain ⟨hreg, hnot⟩ := (hregistered p).1 hp
    rw [← hcalls, hmem] at hnot
    exact hnot hreg

end LoadInput

end KTools.Ktime
