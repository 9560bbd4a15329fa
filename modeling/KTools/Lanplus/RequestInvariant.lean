import Mathlib.Data.List.Induction
import Mathlib.Data.List.Nodup
import KTools.Lanplus.RequestList

/-!
# What the list of pending requests holds

`Represents` relates a memory to a list of requests in the order of their insertion: the links lead from the
head through the requests to NULL, the tail is the last request, and no other entry is in use. Behind it stand
the walk along the links, up to the first request with a key, and the first operation that keeps it: a new
request goes behind the others.
-/

namespace KTools.Lanplus.RequestList
open KTools.Lib

/-! ### The list that the pointers stand for -/

/-- A pending request and its address. -/
structure Item where
  addr : Nat
  entry : RqEntry

def Item.pointer (x : Item) : Pointer := ⟨x.addr, x.entry.alloc⟩

def Item.hasKey (seq cmd : UInt8) (x : Item) : Bool := x.entry.hasKey seq cmd

/-- The pending requests in the order of their insertion, and the number of the next one. -/
structure Requests where
  items : List Item
  allocs : Nat

namespace Requests

def initial : Requests := ⟨[], 0⟩

def pointers (s : Requests) : List Pointer := s.items.map Item.pointer

def entries (s : Requests) : List RqEntry := s.items.map Item.entry

/-- The address is given out, unless a request has it. -/
def malloc (s : Requests) (choice : Option Nat) : Option Pointer :=
  choice.bind fun addr => if addr ∈ s.items.map Item.addr then none else some ⟨addr, s.allocs⟩

/-- A new request behind the others. -/
def add (s : Requests) (p : Pointer) (msg : RqMsg) (seq : UInt8) : Requests where
  items := s.items ++ [⟨p.addr, ⟨p.alloc, msg, seq, 0⟩⟩]
  allocs := s.allocs + 1

/-- The request of the pointer with other fields. -/
def write (s : Requests) (p : Pointer) (msg : RqMsg) (seq : UInt8) (level : Nat) : Requests :=
  { s with items := s.items.map fun x =>
      if x.pointer = p then { x with entry := ⟨x.entry.alloc, msg, seq, level⟩ } else x }

/-- An operation on the list: a lookup returns the first request with the key, and a removal deletes it. -/
def step (s : Requests) : Op → Option Pointer × Requests
  | .add msg seq choice => (s.malloc choice, (s.malloc choice).elim s fun p => s.add p msg seq)
  | .lookup seq cmd => ((s.items.find? (Item.hasKey seq cmd)).map Item.pointer, s)
  | .remove seq cmd => (none, { s with items := s.items.eraseP (Item.hasKey seq cmd) })
  | .clear => (none, { s with items := [] })
  | .write p msg seq level => (none, s.write p msg seq level)
  | .attach _ _ _ => (none, s)

def run : Requests → List Op → List (Option Pointer) × Requests
  | s, [] => ([], s)
  | s, op :: rest => ((s.step op).1 :: (run (s.step op).2 rest).1, (run (s.step op).2 rest).2)

end Requests

/-- The fields that the other modules know. -/
def Entry.rq (alloc : Nat) (e : Entry) : RqEntry := ⟨alloc, e.msg, e.rqSeq, e.bridgingLevel⟩

/-- The link in an entry. -/
def Mem.next (m : Mem) (p : Pointer) : Option (Option Pointer) := (m.entries.load p).map Entry.next

/-- From `p` the links lead through the requests to NULL, and the blocks hold the requests. -/
structure Lists (m : Mem) (p : Option Pointer) (items : List Item) : Prop where
  links : Linked m.next p (items.map Item.pointer) none
  content : ∀ x ∈ items, (m.entries.load x.pointer).map (Entry.rq x.entry.alloc) = some x.entry
  nodup : (items.map Item.pointer).Nodup

/-- Each message belongs to one entry. -/
structure Owned (m : Mem) : Prop where
  live : ∀ p e d, m.entries.load p = some e → e.msgData = some d → m.messages.Live d
  unique : ∀ p q e e' d, m.entries.load p = some e → m.entries.load q = some e' → e.msgData = some d →
    e'.msgData = some d → p = q

/-- The memory holds the requests, in the order of their allocations, and no other entry. -/
structure Represents (m : Mem) (s : Requests) : Prop where
  lists : Lists m m.ipmiReqEntries s.items
  tail : m.ipmiReqEntriesTail = s.pointers.getLast?
  used : ∀ p, m.entries.Live p → p ∈ s.pointers
  order : (s.items.map fun x => x.entry.alloc).Pairwise (· < ·)
  allocs : m.entries.allocs = s.allocs
  owned : Owned m

/-! ### Accesses -/

section accesses
variable {m : Mem} {p : Pointer} {e : Entry} (hload : m.entries.load p = some e)
include hload

theorem load_run : load (some p) m = .ok e m := by
  rw [load, get_bind_apply, hload]
  rfl

theorem assign_run (f : Entry → Entry) :
    assign (some p) f m = .ok ⟨⟩ { m with entries := m.entries.store p (f e) } := by
  rw [assign, bind_ok (load_run hload)]
  rfl

theorem free_run : free (some p) m = .ok ⟨⟩ { m with entries := m.entries.free p } := by
  show (if m.entries.Live p then modify fun m => { m with entries := m.entries.free p }
    else throw .invalidPointer : ListM PUnit) m = _
  rw [if_pos (Heap.live_iff.2 ⟨e, hload⟩)]
  rfl

theorem lookupLoop_some (fuel : Nat) (seq cmd : UInt8) : lookupLoop seq cmd (fuel + 1) (some p) m =
    if e.misses seq cmd then
      if samePointer (some p) e.next then .ok none m else lookupLoop seq cmd fuel e.next m
    else .ok (some p) m := by
  rw [lookupLoop, if_neg (Option.some_ne_none p), bind_ok (load_run hload)]
  split
  · split
    · rfl
    · rfl
  · rfl

theorem removeLoop_some (fuel : Nat) (seq cmd : UInt8) (q : Option Pointer) :
    removeLoop seq cmd (fuel + 1) q (some p) m =
      if e.misses seq cmd then removeLoop seq cmd fuel (some p) e.next m else .ok (q, some p) m := by
  rw [removeLoop, if_neg (Option.some_ne_none p), bind_ok (load_run hload)]
  split
  · rfl
  · rfl

theorem clearLoop_some (fuel : Nat) : clearLoop (fuel + 1) (some p) m =
    clearLoop fuel e.next { m with entries := m.entries.free p } := by
  rw [clearLoop, if_neg (Option.some_ne_none p), bind_ok (load_run hload), bind_ok (free_run hload)]

end accesses

/-! ### The walk along the list -/

theorem rq_eq {alloc : Nat} {e : Entry} {x : RqEntry} (h : e.rq alloc = x) :
    e.msg = x.msg ∧ e.rqSeq = x.rqSeq ∧ e.bridgingLevel = x.bridgingLevel := by
  subst h
  exact ⟨rfl, rfl, rfl⟩

/-- The loops go on exactly when the request does not have the key. -/
theorem misses_iff {e : Entry} {x : Item} (h : e.rq x.entry.alloc = x.entry) (seq cmd : UInt8) :
    e.misses seq cmd ↔ ¬ x.hasKey seq cmd = true := by
  obtain ⟨hmsg, hseq, -⟩ := rq_eq h
  unfold Entry.misses Item.hasKey RqEntry.hasKey
  rw [hmsg, hseq, Bool.and_eq_true, beq_iff_eq, beq_iff_eq, Decidable.not_and_iff_or_not]

section lists
variable {m : Mem} {p : Option Pointer} {x y : Item} {items rest : List Item}

theorem Lists.load_eq (h : Lists m p items) (hx : x ∈ items) :
    ∃ e, m.entries.load x.pointer = some e ∧ e.rq x.entry.alloc = x.entry :=
  Option.map_eq_some_iff.1 (h.content x hx)

theorem Lists.live (h : Lists m p items) (hx : x ∈ items) : m.entries.Live x.pointer := by
  obtain ⟨e, hload, -⟩ := h.load_eq hx
  exact Heap.live_iff.2 ⟨e, hload⟩

theorem samePointer_iff {q r : Pointer} (hq : m.entries.Live q) (hr : m.entries.Live r) :
    samePointer (some q) (some r) = true ↔ q = r := by
  unfold samePointer
  rw [beq_iff_eq]
  constructor
  · intro h
    exact hq.eq_of_addr hr (Option.some.inj h)
  · rintro rfl
    rfl

/-- The first request, and the list behind it, which does not come back to it. -/
theorem Lists.cons (h : Lists m p (x :: rest)) : p = some x.pointer ∧
    ∃ e, m.entries.load x.pointer = some e ∧ e.rq x.entry.alloc = x.entry ∧ Lists m e.next rest ∧
      samePointer p e.next = false := by
  obtain ⟨hp, n, hn, hlinks⟩ := h.links
  obtain ⟨e, hload, hrq⟩ := h.load_eq List.mem_cons_self
  obtain ⟨hfresh, hnodup⟩ := List.nodup_cons.1 h.nodup
  have hnext : e.next = n := by
    rw [Mem.next, hload] at hn
    exact Option.some.inj hn
  have hrest : Lists m e.next rest :=
    ⟨hnext ▸ hlinks, fun y hy => h.content y (.tail _ hy), hnodup⟩
  refine ⟨hp, e, hload, hrq, hrest, ?_⟩
  rw [hp, hrest.links.start]
  cases rest with
  | nil => rfl
  | cons y rest =>
    rw [← Bool.not_eq_true]
    intro hsame
    have heq := (samePointer_iff (h.live List.mem_cons_self) (hrest.live List.mem_cons_self)).1 hsame
    exact hfresh (heq ▸ List.mem_cons_self)

theorem exists_fuel {n fuel : Nat} (h : n < fuel) : ∃ fuel', fuel = fuel' + 1 :=
  Nat.exists_eq_succ_of_ne_zero (Nat.ne_zero_of_lt h)

/-- **The lookup** returns the first request with the key, by induction on the list. -/
theorem lookupLoop_run (seq cmd : UInt8) : ∀ {fuel : Nat} {p : Option Pointer}, items.length < fuel →
    Lists m p items →
      lookupLoop seq cmd fuel p m = .ok ((items.find? (Item.hasKey seq cmd)).map Item.pointer) m := by
  induction items with
  | nil =>
    intro fuel p hfuel h
    obtain ⟨fuel, rfl⟩ := exists_fuel hfuel
    obtain rfl : p = none := h.links
    rfl
  | cons x rest ih =>
    intro fuel p hfuel h
    obtain ⟨fuel, rfl⟩ := exists_fuel hfuel
    obtain ⟨rfl, e, hload, hrq, hrest, hsame⟩ := h.cons
    rw [lookupLoop_some hload]
    by_cases hkey : x.hasKey seq cmd = true
    · rw [if_neg fun hmisses => (misses_iff hrq seq cmd).1 hmisses hkey, List.find?_cons_of_pos hkey]
      rfl
    · rw [if_pos ((misses_iff hrq seq cmd).2 hkey), List.find?_cons_of_neg hkey, hsame,
        if_neg Bool.false_ne_true]
      exact ih (Nat.lt_of_succ_lt_succ hfuel) hrest

/-- The loop of the removal goes over the requests without the key; `q` follows one behind. -/
theorem removeLoop_run (seq cmd : UInt8) : ∀ {fuel : Nat} {p q : Option Pointer}, items.length < fuel →
    Lists m p items →
      (items.find? (Item.hasKey seq cmd) = none → ∃ q', removeLoop seq cmd fuel q p m = .ok (q', none) m) ∧
      ∀ pre x post, items = pre ++ x :: post → (∀ y ∈ pre, ¬ y.hasKey seq cmd = true) →
        x.hasKey seq cmd = true →
          removeLoop seq cmd fuel q p m = .ok (((pre.map Item.pointer).getLast?).or q, some x.pointer) m := by
  induction items with
  | nil =>
    intro fuel p q hfuel h
    obtain ⟨fuel, rfl⟩ := exists_fuel hfuel
    obtain rfl : p = none := h.links
    refine ⟨fun _ => ⟨q, rfl⟩, fun pre x post hsplit => ?_⟩
    exact absurd hsplit (List.append_ne_nil_of_right_ne_nil _ (List.cons_ne_nil _ _)).symm
  | cons y rest ih =>
    intro fuel p q hfuel h
    obtain ⟨fuel, rfl⟩ := exists_fuel hfuel
    obtain ⟨rfl, e, hload, hrq, hrest, -⟩ := h.cons
    rw [removeLoop_some hload]
    by_cases hkey : y.hasKey seq cmd = true
    · rw [if_neg fun hmisses => (misses_iff hrq seq cmd).1 hmisses hkey, List.find?_cons_of_pos hkey]
      refine ⟨nofun, fun pre x post hsplit hpre hx => ?_⟩
      cases pre with
      | nil =>
        obtain ⟨rfl, -⟩ := List.cons.inj hsplit
        rfl
      | cons z pre =>
        obtain ⟨rfl, -⟩ := List.cons.inj hsplit
        exact absurd hkey (hpre y List.mem_cons_self)
    · rw [if_pos ((misses_iff hrq seq cmd).2 hkey), List.find?_cons_of_neg hkey]
      obtain ⟨hnone, hfound⟩ := ih (q := some y.pointer) (Nat.lt_of_succ_lt_succ hfuel) hrest
      refine ⟨hnone, fun pre x post hsplit hpre hx => ?_⟩
      cases pre with
      | nil =>
        obtain ⟨rfl, -⟩ := List.cons.inj hsplit
        exact absurd hx hkey
      | cons z pre =>
        obtain ⟨rfl, hbehind⟩ := List.cons.inj hsplit
        rw [hfound pre x post hbehind (fun z hz => hpre z (.tail _ hz)) hx]
        cases pre with
        | nil => rfl
        | cons w pre => simp [List.getLast?_cons]

end lists

/-! ### Adding -/

theorem add_pointers (s : Requests) (p : Pointer) (msg : RqMsg) (seq : UInt8) :
    (s.add p msg seq).pointers = s.pointers ++ [p] := by
  unfold Requests.pointers Requests.add
  rw [List.map_append]
  rfl

section represents
variable {m : Mem} {s : Requests} (h : Represents m s)
include h

theorem Represents.live {p : Pointer} (hp : p ∈ s.pointers) : m.entries.Live p := by
  obtain ⟨x, hx, rfl⟩ := List.mem_map.1 hp
  exact h.lists.live hx

theorem Represents.nodup : s.pointers.Nodup := h.lists.nodup

/-- The number of the next allocation is new. -/
theorem Represents.alloc_lt {p : Pointer} (hp : p ∈ s.pointers) : p.alloc < s.allocs := by
  rw [← h.allocs]
  exact (h.live hp).alloc_lt

/-- `malloc` gives out the address unless a request has it. -/
theorem mallocEntry_run (choice : Option Nat) :
    (s.malloc choice = none ∧ mallocEntry choice m = .ok none m) ∨
      ∃ p addr entries, s.malloc choice = some p ∧ m.entries.malloc addr .zero = some (p, entries) ∧
        mallocEntry choice m = .ok (some p) { m with entries := entries } := by
  cases choice with
  | none => exact .inl ⟨rfl, rfl⟩
  | some addr =>
    have htaken : (∃ p, m.entries.Live p ∧ p.addr = addr) ↔ addr ∈ s.items.map Item.addr := by
      rw [List.mem_map]
      constructor
      · rintro ⟨p, hlive, rfl⟩
        obtain ⟨x, hx, rfl⟩ := List.mem_map.1 (h.used p hlive)
        exact ⟨x, hx, rfl⟩
      · rintro ⟨x, hx, rfl⟩
        exact ⟨x.pointer, h.lists.live hx, rfl⟩
    have hisSome : (m.entries.malloc addr .zero).isSome = true ↔ _ := Heap.malloc_isSome
    rw [htaken] at hisSome
    rw [mallocEntry, get_bind_apply, Option.bind_some]
    cases hmalloc : m.entries.malloc addr .zero with
    | none =>
      rw [hmalloc] at hisSome
      refine .inl ⟨if_pos ?_, rfl⟩
      exact Decidable.not_not.1 fun hfree => absurd (hisSome.2 hfree) Bool.false_ne_true
    | some r =>
      obtain ⟨p, entries⟩ := r
      rw [hmalloc] at hisSome
      refine .inr ⟨p, addr, entries, ?_, hmalloc, ?_⟩
      · rw [(Heap.malloc_pointer hmalloc).1, h.allocs]
        exact if_neg (hisSome.1 rfl)
      · rfl

end represents

/-- The new entry gets behind the last one. -/
theorem linkEntry_run {m : Mem} {ps : List Pointer} (p : Pointer) (hhead : m.ipmiReqEntries = ps.head?)
    (htail : m.ipmiReqEntriesTail = ps.getLast?) (hlive : ∀ q ∈ ps, m.entries.Live q) :
    ∃ m', linkEntry (some p) m = .ok ⟨⟩ m' ∧ m'.ipmiReqEntries = (ps ++ [p]).head? ∧
      m'.entries.allocs = m.entries.allocs ∧ m'.messages = m.messages ∧
      ∀ q, m'.entries.load q =
        if some q = ps.getLast? then (m.entries.load q).map fun e => { e with next := some p }
        else m.entries.load q := by
  cases ps using List.reverseRecOn with
  | nil =>
    refine ⟨{ m with ipmiReqEntries := some p }, ?_, rfl, rfl, rfl, fun q => ?_⟩
    · have hnull : m.ipmiReqEntries = none := hhead
      rw [linkEntry, get_bind_apply, if_pos hnull]
      rfl
    · rw [List.getLast?_nil, if_neg (Option.some_ne_none q)]
  | append_singleton init t =>
    rw [List.getLast?_concat] at htail ⊢
    obtain ⟨e, hload⟩ := Heap.live_iff.1 (hlive t (List.mem_append_right _ List.mem_cons_self))
    refine ⟨{ m with entries := m.entries.store t { e with next := some p } }, ?_, ?_, ?_, rfl, fun q => ?_⟩
    · have hsome : m.ipmiReqEntries ≠ none := by
        rw [hhead, ne_eq, List.head?_eq_none_iff]
        exact List.append_ne_nil_of_right_ne_nil _ (List.cons_ne_nil _ _)
      have hassign := assign_run hload fun x => { x with next := some p }
      rw [← htail] at hassign
      rw [linkEntry, get_bind_apply, if_neg hsome]
      exact hassign
    · rw [hhead]
      cases init with
      | nil => rfl
      | cons y init => rfl
    · exact Heap.put_allocs _ _ _
    · rw [Heap.load_store (Heap.live_iff.2 ⟨e, hload⟩)]
      by_cases hq : q = t
      · rw [if_pos hq, if_pos (congrArg some hq), hq, hload]
        rfl
      · rw [if_neg hq, if_neg fun hsome => hq (Option.some.inj hsome)]

/-- Entries with the same messages as before. -/
theorem Owned.mono {m m' : Mem} (h : Owned m) (hmessages : m'.messages = m.messages)
    (hentries : ∀ p e d, m'.entries.load p = some e → e.msgData = some d →
      ∃ e', m.entries.load p = some e' ∧ e'.msgData = some d) : Owned m' where
  live := by
    intro p e d hload hdata
    obtain ⟨e', hload', hdata'⟩ := hentries p e d hload hdata
    rw [hmessages]
    exact h.live p e' d hload' hdata'
  unique := by
    intro p q e e' d hp hq he he'
    obtain ⟨c, hc, hcd⟩ := hentries p e d hp he
    obtain ⟨c', hc', hcd'⟩ := hentries q e' d hq he'
    exact h.unique p q c c' d hc hc' hcd hcd'

/-- The memory with a new entry behind the last one. -/
theorem Represents.added {m m' : Mem} {s : Requests} (h : Represents m s) {p : Pointer} {msg : RqMsg} {seq : UInt8}
    (halloc : p.alloc = s.allocs) (hfresh : ¬ m.entries.Live p)
    (hhead : m'.ipmiReqEntries = (s.pointers ++ [p]).head?) (htail : m'.ipmiReqEntriesTail = some p)
    (hallocs : m'.entries.allocs = s.allocs + 1) (hmessages : m'.messages = m.messages)
    (hload : ∀ q, m'.entries.load q = if q = p then some ⟨msg, seq, none, 0, none⟩
      else if some q = s.pointers.getLast? then (m.entries.load q).map fun e => { e with next := some p }
      else m.entries.load q) : Represents m' (s.add p msg seq) := by
  have hne : ∀ q ∈ s.pointers, q ≠ p := by
    rintro q hq rfl
    exact hfresh (h.live hq)
  have hnew : m'.entries.load p = some ⟨msg, seq, none, 0, none⟩ := by rw [hload, if_pos rfl]
  have hpointers := add_pointers s p msg seq
  have hlinks : Linked m'.next m'.ipmiReqEntries (s.pointers ++ [p]) none := by
    rw [hhead]
    refine h.lists.links.concat h.nodup ?_ (fun t ht => ?_) fun y hy hlast => ?_
    · rw [Mem.next, hnew]
      rfl
    · have hmem : t ∈ s.pointers := List.mem_of_getLast? ht
      have hlast : some t = s.pointers.getLast? := ht.symm
      obtain ⟨e, he⟩ := Heap.live_iff.1 (h.live hmem)
      rw [Mem.next, hload, if_neg (hne t hmem), if_pos hlast, he]
      rfl
    · have hnot : ¬ some y = s.pointers.getLast? := fun heq => hlast heq.symm
      rw [Mem.next, Mem.next, hload, if_neg (hne y hy), if_neg hnot]
  have hcontent : ∀ x ∈ s.items, (m'.entries.load x.pointer).map (Entry.rq x.entry.alloc) = some x.entry := by
    intro x hx
    rw [hload, if_neg (hne _ (List.mem_map_of_mem hx)), ← h.lists.content x hx]
    split
    · rw [Option.map_map]
      rfl
    · rfl
  constructor
  · refine ⟨?_, fun x hx => ?_, ?_⟩
    · change Linked _ _ (s.add p msg seq).pointers none
      rw [hpointers]
      exact hlinks
    · rcases List.mem_append.1 hx with hx | hx
      · exact hcontent x hx
      · rw [List.mem_singleton.1 hx]
        show (m'.entries.load p).map _ = _
        rw [hnew]
        rfl
    · change (s.add p msg seq).pointers.Nodup
      rw [hpointers, List.nodup_append]
      refine ⟨h.nodup, List.pairwise_singleton _ _, fun q hq r hr => ?_⟩
      rw [List.mem_singleton.1 hr]
      exact hne q hq
  · rw [hpointers, List.getLast?_concat, htail]
  · intro q hlive
    rw [hpointers]
    by_cases hq : q = p
    · exact List.mem_append_right _ (List.mem_singleton.2 hq)
    · refine List.mem_append_left _ (h.used q ?_)
      unfold Heap.Live at hlive ⊢
      rw [hload, if_neg hq] at hlive
      split at hlive
      · rwa [Option.isSome_map] at hlive
      · exact hlive
  · show ((s.items ++ [_]).map fun x : Item => x.entry.alloc).Pairwise (· < ·)
    rw [List.map_append, List.pairwise_append]
    refine ⟨h.order, List.pairwise_singleton _ _, fun a ha b hb => ?_⟩
    obtain ⟨x, hx, rfl⟩ := List.mem_map.1 ha
    rw [List.mem_singleton.1 hb]
    exact halloc ▸ h.alloc_lt (List.mem_map_of_mem hx)
  · exact hallocs
  · refine h.owned.mono hmessages fun q e d hq hdata => ?_
    rw [hload] at hq
    split at hq
    · cases hq
      cases hdata
    · split at hq
      · obtain ⟨e', he', rfl⟩ := Option.map_eq_some_iff.1 hq
        exact ⟨e', he', hdata⟩
      · exact ⟨e, hq, hdata⟩

/-- **Adding** a request. -/
theorem ipmiReqAddEntry_run {m : Mem} {s : Requests} (h : Represents m s) (msg : RqMsg) (seq : UInt8)
    (choice : Option Nat) : ∃ m', ipmiReqAddEntry msg seq choice m = .ok (s.malloc choice) m' ∧
      Represents m' ((s.malloc choice).elim s fun p => s.add p msg seq) := by
  unfold ipmiReqAddEntry
  rcases mallocEntry_run h choice with ⟨hnone, hrun⟩ | ⟨p, addr, entries, hsome, hmalloc, hrun⟩
  · rw [hnone, bind_ok hrun]
    exact ⟨m, rfl, h⟩
  · obtain ⟨hp, hallocs⟩ := Heap.malloc_pointer hmalloc
    have hload := Heap.load_malloc hmalloc
    have hnew : entries.load p = some .zero := by rw [hload, if_pos rfl]
    have hassign : assign (some p) (fun x => { x with msg := msg, rqSeq := seq }) { m with entries := entries } =
        .ok ⟨⟩ { m with entries := entries.store p ⟨msg, seq, none, 0, none⟩ } :=
      assign_run (m := { m with entries := entries }) hnew fun x => { x with msg := msg, rqSeq := seq }
    have hlive : entries.Live p := Heap.live_iff.2 ⟨_, hnew⟩
    have hstored := Heap.load_store hlive (⟨msg, seq, none, 0, none⟩ : Entry)
    have hfresh := Heap.malloc_fresh hmalloc
    rw [hsome, bind_ok hrun, if_neg (Option.some_ne_none p), bind_ok hassign, Option.elim_some]
    have holder : ∀ q ∈ s.pointers, (entries.store p ⟨msg, seq, none, 0, none⟩).Live q := by
      intro q hq
      rw [Heap.live_store hlive]
      obtain ⟨e, he⟩ := Heap.live_iff.1 (h.live hq)
      refine Heap.live_iff.2 ⟨e, ?_⟩
      rw [hload, if_neg, he]
      rintro rfl
      exact hfresh (h.live hq)
    obtain ⟨m', hlink, hhead, hallocs', hmessages, hlinked⟩ := linkEntry_run
      (m := { m with entries := entries.store p ⟨msg, seq, none, 0, none⟩ }) p h.lists.links.start h.tail holder
    refine ⟨{ m' with ipmiReqEntriesTail := some p }, ?_, ?_⟩
    · rw [bind_ok hlink]
      rfl
    · refine h.added ?_ hfresh hhead rfl ?_ hmessages fun q => ?_
      · rw [hp, h.allocs]
      · show m'.entries.allocs = _
        rw [hallocs', ← h.allocs, ← hallocs]
        exact Heap.put_allocs _ _ _
      · show m'.entries.load q = _
        rw [hlinked]
        dsimp only
        rw [hstored, hload]
        by_cases hq : q = p
        · subst hq
          rw [if_pos rfl, if_pos rfl, if_neg fun hlast => hfresh (h.live (List.mem_of_getLast? hlast.symm))]
        · simp only [if_neg hq]
          rfl

end KTools.Lanplus.RequestList
