import Mathlib.Data.List.AList
import Mathlib.Data.List.Induction

/-!
# The bookkeeping of print_time.stp

The call probes store the time of the call in `start_times`, under the thread and the function, and count
the entries; the return probes print the duration of the call whose time they find, and take it off again.
A call probe that finds `MAX_ENTRIES` entries clears the table first. A probe body is one step (`step`), a
run is a list of probe events.

The table holds, under each key, the time of the innermost call that has not returned, or nothing
(`lookup_eq_head`), so the printed durations are right in every run. The counter is incremented by every call
while a nested call overwrites the entry of the outer one, so it is the number of entries exactly as long as
no call comes on a key that is in the table (`kept_iff`).
-/

namespace KTools.Trace

variable {Func : Type} [DecidableEq Func]

inductive Kind where
  | call
  | return
  deriving DecidableEq

/-- A probe event: `tid()`, `probefunc()`, `cpu()`, and the clock in nanoseconds and in seconds. -/
structure Event (Func : Type) where
  kind : Kind
  tid : Nat
  func : Func
  cpu : Nat
  gettimeofdayNs : Int
  gettimeofdayS : Int

/-- `[tid(), probefunc()]`. -/
structure Key (Func : Type) where
  tid : Nat
  func : Func
  deriving DecidableEq

def Event.key (e : Event Func) : Key Func := ⟨e.tid, e.func⟩

/-- A line of the return probes. -/
structure Line (Func : Type) where
  cnt : Int
  now : Int
  cpu : Nat
  tid : Nat
  func : Func
  duration : Int

/-- The globals that the probes write. -/
structure Globals (Func : Type) where
  startTimes : AList fun _ : Key Func => Int
  entryCount : Int
  flag : Bool

def maxEntries : Int := 1024
def maxElapsedTime : Int := 1000000000

/-! ### The probes -/

def probeCall (s : Globals Func) (e : Event Func) : Globals Func :=
  let s := if s.entryCount ≥ maxEntries then { startTimes := ∅, entryCount := 0, flag := false } else s
  { s with
    startTimes := s.startTimes.insert e.key e.gettimeofdayNs
    entryCount := s.entryCount + 1 }

def probeReturn (s : Globals Func) (e : Event Func) : Globals Func × Option (Line Func) :=
  match s.startTimes.lookup e.key with
  | none => (s, none)
  | some start =>
    let elapsedTime := e.gettimeofdayNs - start
    let s := { s with startTimes := s.startTimes.erase e.key, entryCount := s.entryCount - 1 }
    (s, if s.flag = true ∨ elapsedTime > maxElapsedTime then
        some ⟨s.entryCount, e.gettimeofdayS, e.cpu, e.tid, e.func, elapsedTime⟩
      else none)

def step (s : Globals Func) (e : Event Func) : Globals Func × Option (Line Func) :=
  match e.kind with
  | .call => (probeCall s e, none)
  | .return => probeReturn s e

def Globals.initial : Globals Func := ⟨∅, 0, true⟩

def run (trace : List (Event Func)) : Globals Func := trace.foldl (fun s e => (step s e).1) .initial

/-- The times of the calls on a key that have not returned, the innermost one first. -/
def openCalls (key : Key Func) (trace : List (Event Func)) : List Int :=
  trace.foldl (fun l e =>
    if e.key = key then
      match e.kind with
      | .call => e.gettimeofdayNs :: l
      | .return => l.tail
    else l) []

theorem run_concat (pre : List (Event Func)) (e : Event Func) : run (pre ++ [e]) = (step (run pre) e).1 :=
  List.foldl_append

theorem openCalls_concat (key : Key Func) (pre : List (Event Func)) (e : Event Func) :
    openCalls key (pre ++ [e]) =
      if e.key = key then
        match e.kind with
        | .call => e.gettimeofdayNs :: openCalls key pre
        | .return => (openCalls key pre).tail
      else openCalls key pre := List.foldl_append

/-! ### The table -/

/-- Nothing is stored under the key, or the time of the innermost call that has not returned. -/
def HeadOrNone (l : List Int) (o : Option Int) : Prop := ∀ start, o = some start → l.head? = some start

theorem probeCall_lookup (s : Globals Func) (e : Event Func) (key : Key Func) :
    (probeCall s e).startTimes.lookup key =
      if e.key = key then some e.gettimeofdayNs
      else if s.entryCount ≥ maxEntries then none else s.startTimes.lookup key := by
  unfold probeCall
  by_cases hkey : e.key = key
  · subst hkey
    rw [if_pos rfl]
    exact AList.lookup_insert _
  · rw [if_neg hkey, AList.lookup_insert_ne (Ne.symm hkey)]
    split
    · rfl
    · rfl

theorem probeReturn_lookup (s : Globals Func) (e : Event Func) (key : Key Func) :
    (probeReturn s e).1.startTimes.lookup key =
      if e.key = key then none else s.startTimes.lookup key := by
  unfold probeReturn
  by_cases hkey : e.key = key
  · subst hkey
    rw [if_pos rfl]
    split
    · assumption
    · exact AList.lookup_erase _ _
  · rw [if_neg hkey]
    split
    · rfl
    · exact AList.lookup_erase_ne (Ne.symm hkey)

/-- **The table holds the innermost open calls**, in every run. -/
theorem lookup_eq_head (trace : List (Event Func)) (key : Key Func) :
    HeadOrNone (openCalls key trace) ((run trace).startTimes.lookup key) := by
  induction trace using List.reverseRecOn with
  | nil => intro start h; cases h
  | append_singleton pre e ih =>
    intro start h
    rw [run_concat, step] at h
    rw [openCalls_concat]
    cases hkind : e.kind with
    | call =>
      simp only [hkind, probeCall_lookup] at h
      by_cases hkey : e.key = key
      · rw [if_pos hkey] at h ⊢
        exact h
      · rw [if_neg hkey] at h ⊢
        split at h
        · cases h
        · exact ih start h
    | «return» =>
      simp only [hkind, probeReturn_lookup] at h
      by_cases hkey : e.key = key
      · rw [if_pos hkey] at h
        cases h
      · rw [if_neg hkey] at h ⊢
        exact ih start h

/-- What is printed after `pre` is the time since the innermost open call on the key of the event. -/
theorem step_line {pre : List (Event Func)} {e : Event Func} {line : Line Func}
    (h : (step (run pre) e).2 = some line) :
    e.kind = .return ∧ line.tid = e.tid ∧ line.func = e.func ∧
      ∃ start rest, openCalls e.key pre = start :: rest ∧ line.duration = e.gettimeofdayNs - start := by
  unfold step at h
  split at h
  · cases h
  · rename_i hkind
    unfold probeReturn at h
    split at h
    · cases h
    · rename_i start hstart
      dsimp only at h
      split at h
      · obtain rfl := Option.some.inj h
        obtain ⟨rest, hrest⟩ := List.head?_eq_some_iff.1 (lookup_eq_head pre e.key start hstart)
        exact ⟨hkind, rfl, rfl, start, rest, hrest, rfl⟩
      · cases h

/-! ### The counter -/

/-- The number of keys in `start_times`. -/
def Globals.size (s : Globals Func) : Nat := s.startTimes.keys.length

theorem probeCall_count (s : Globals Func) (e : Event Func) :
    ((probeCall s e).entryCount, ((probeCall s e).size : Int)) =
      if s.entryCount ≥ maxEntries then (1, 1)
      else (s.entryCount + 1, if e.key ∈ s.startTimes then (s.size : Int) else s.size + 1) := by
  unfold probeCall Globals.size
  by_cases hfull : s.entryCount ≥ maxEntries
  · simp only [if_pos hfull, AList.insert_empty, AList.keys_singleton]
    rfl
  · simp only [if_neg hfull, AList.keys_insert, List.length_cons]
    by_cases hmem : e.key ∈ s.startTimes
    · rw [if_pos hmem, List.length_erase_add_one (AList.mem_keys.1 hmem)]
    · rw [if_neg hmem, List.erase_of_not_mem fun h => hmem (AList.mem_keys.2 h)]
      push_cast
      rfl

theorem probeReturn_count (s : Globals Func) (e : Event Func) :
    ((probeReturn s e).1.entryCount, ((probeReturn s e).1.size : Int)) =
      if e.key ∈ s.startTimes then (s.entryCount - 1, (s.size : Int) - 1) else (s.entryCount, s.size) := by
  unfold probeReturn Globals.size
  cases hlookup : s.startTimes.lookup e.key with
  | none => rw [if_neg (AList.lookup_eq_none.1 hlookup)]
  | some start =>
    have hmem : e.key ∈ s.startTimes := AList.lookup_isSome.1 (by rw [hlookup]; rfl)
    have hlength := List.length_erase_add_one (AList.mem_keys.1 hmem)
    simp only [if_pos hmem, AList.keys_erase, Prod.mk.injEq, true_and]
    omega

/-- The counter is not below the number of keys, nor above `MAX_ENTRIES`. -/
theorem size_le_entryCount (trace : List (Event Func)) :
    ((run trace).size : Int) ≤ (run trace).entryCount ∧ (run trace).entryCount ≤ maxEntries := by
  induction trace using List.reverseRecOn with
  | nil => exact ⟨Int.le_refl 0, show (0 : Int) ≤ maxEntries by decide⟩
  | append_singleton pre e ih =>
    obtain ⟨hsize, hmax⟩ := ih
    rw [run_concat, step]
    cases e.kind with
    | call =>
      have hcount := probeCall_count (run pre) e
      by_cases hfull : (run pre).entryCount ≥ maxEntries
      · rw [if_pos hfull, Prod.mk.injEq] at hcount
        rw [hcount.1, hcount.2]
        exact ⟨Int.le_refl _, by decide⟩
      · rw [if_neg hfull, Prod.mk.injEq] at hcount
        rw [hcount.1, hcount.2]
        refine ⟨?_, by omega⟩
        split
        · omega
        · omega
    | «return» =>
      have hcount := probeReturn_count (run pre) e
      by_cases hmem : e.key ∈ (run pre).startTimes
      · rw [if_pos hmem, Prod.mk.injEq] at hcount
        dsimp only
        rw [hcount.1, hcount.2]
        omega
      · rw [if_neg hmem, Prod.mk.injEq] at hcount
        dsimp only
        rw [hcount.1, hcount.2]
        exact ⟨hsize, hmax⟩

/-! ### Runs -/

/-- After a run the counter is the number of keys, within its bound, and the next event prints the time since
the innermost open call of its thread and function. -/
structure Kept (trace : List (Event Func)) : Prop where
  count : (run trace).entryCount = (run trace).size
  bound : (run trace).entryCount ≤ maxEntries
  durations : ∀ e line, (step (run trace) e).2 = some line →
    line.tid = e.tid ∧ line.func = e.func ∧
      ∃ start rest, openCalls e.key trace = start :: rest ∧ line.duration = e.gettimeofdayNs - start

/-- The event is no call on a key that is in the table, unless the table is cleared first. -/
def Fresh (s : Globals Func) (e : Event Func) : Prop :=
  e.kind = .call → e.key ∉ s.startTimes ∨ s.entryCount ≥ maxEntries

theorem kept_of_count {trace : List (Event Func)} (h : (run trace).entryCount = (run trace).size) :
    Kept trace :=
  ⟨h, (size_le_entryCount trace).2, fun _ _ hline => (step_line hline).2⟩

/-- One event keeps the count exactly when it is fresh. -/
theorem step_count_iff {s : Globals Func} (h : s.entryCount = s.size) (e : Event Func) :
    (step s e).1.entryCount = (step s e).1.size ↔ Fresh s e := by
  unfold step Fresh
  cases e.kind with
  | call =>
    have hcount := probeCall_count s e
    by_cases hfull : s.entryCount ≥ maxEntries
    · rw [if_pos hfull, Prod.mk.injEq] at hcount
      dsimp only
      rw [hcount.1, hcount.2]
      exact iff_of_true rfl fun _ => Or.inr hfull
    · rw [if_neg hfull, Prod.mk.injEq] at hcount
      dsimp only
      rw [hcount.1, hcount.2]
      by_cases hmem : e.key ∈ s.startTimes
      · rw [if_pos hmem]
        refine iff_of_false (by omega) fun h => ?_
        rcases h rfl with h | h
        · exact h hmem
        · exact hfull h
      · rw [if_neg hmem]
        exact iff_of_true (by omega) fun _ => Or.inl hmem
  | «return» =>
    have hcount := probeReturn_count s e
    refine iff_of_true ?_ fun h => by cases h
    by_cases hmem : e.key ∈ s.startTimes
    · rw [if_pos hmem, Prod.mk.injEq] at hcount
      dsimp only
      rw [hcount.1, hcount.2, h]
    · rw [if_neg hmem, Prod.mk.injEq] at hcount
      dsimp only
      rw [hcount.1, hcount.2, h]

/-- **The books are kept throughout a run exactly when all its events are fresh.** -/
theorem kept_iff (trace : List (Event Func)) :
    (∀ pre, pre <+: trace → Kept pre) ↔
      ∀ pre e post, trace = pre ++ e :: post → Fresh (run pre) e := by
  constructor
  · rintro h pre e post rfl
    have hpre := (h pre (List.prefix_append _ _)).count
    have hnext := (h (pre ++ [e]) ⟨post, by simp⟩).count
    rw [run_concat] at hnext
    exact (step_count_iff hpre e).1 hnext
  · rintro h pre ⟨post, rfl⟩
    apply kept_of_count
    induction pre using List.reverseRecOn generalizing post with
    | nil => rfl
    | append_singleton pre e ih =>
      have hpre := ih ([e] ++ post) (by simpa using h)
      rw [run_concat]
      exact (step_count_iff hpre e).2 (h pre e post (by simp))

/-- A thread that calls the function again before it returns: two entries are counted for one key. -/
theorem nested_not_kept : ¬ ∀ trace : List (Event Unit), Kept trace := by
  intro h
  have hcount := (h [⟨.call, 1, (), 0, 100, 0⟩, ⟨.call, 1, (), 0, 200, 0⟩]).count
  revert hcount
  decide +kernel

end KTools.Trace
