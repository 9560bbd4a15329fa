import KTools.Lib.Heap
import KTools.Lib.Triple
import KTools.Lanplus.Types

/-!
# The list of pending requests

The pending requests are blocks of the heap, linked by `next` between the static pointers `ipmi_req_entries` and
`ipmi_req_entries_tail`. The operations are followed here with their pointers: an access through NULL, or to a
block that has been freed, stops the run, and so does a loop that does not end. Pointers are compared by their
addresses, and `malloc` may give out every address that is not taken, also that of an entry freed before. The
callers write to the entries, too: they fill in an entry that has been added, and count the bridges down.

Whatever the list looks like, an entry that has been freed stays so (`run_keeps_dead`).
-/

namespace KTools.Lanplus.RequestList
open KTools.Lib

/-! ### The memory -/

/-- `struct ipmi_rq_entry`. -/
structure Entry where
  msg : RqMsg
  rqSeq : UInt8
  msgData : Option Pointer
  bridgingLevel : Nat
  next : Option Pointer
  deriving DecidableEq

/-- The entry behind `memset`. -/
def Entry.zero : Entry := ⟨⟨0, 0⟩, 0, none, 0, none⟩

/-- The two statics, and the blocks: the entries, and the messages that `msg_data` points to. -/
structure Mem where
  entries : Heap Entry
  messages : Heap (List UInt8)
  ipmiReqEntries : Option Pointer
  ipmiReqEntriesTail : Option Pointer

def Mem.initial : Mem := ⟨.empty, .empty, none, none⟩

inductive Stop where
  | invalidPointer
  | endless
  deriving DecidableEq

abbrev ListM := EStateM Stop Mem

/-- `p == q`. -/
def samePointer (p q : Option Pointer) : Bool := p.map Pointer.addr == q.map Pointer.addr

/-- The fields behind a pointer. -/
def load : Option Pointer → ListM Entry
  | none => throw .invalidPointer
  | some p => do
    let m ← get
    match m.entries.load p with
    | some e => return e
    | none => throw .invalidPointer

/-- An assignment to fields behind a pointer. -/
def assign : Option Pointer → (Entry → Entry) → ListM PUnit
  | none, _ => throw .invalidPointer
  | some p, f => do
    let e ← load (some p)
    modify fun m => { m with entries := m.entries.store p (f e) }

def free : Option Pointer → ListM PUnit
  | none => pure ⟨⟩
  | some p => do
    let m ← get
    if m.entries.Live p then modify fun m => { m with entries := m.entries.free p }
    else throw .invalidPointer

/-- `malloc` and `memset`; the choice is the address, or none when there is no room. -/
def mallocEntry (choice : Option Nat) : ListM (Option Pointer) := do
  let m ← get
  match choice.bind fun addr => m.entries.malloc addr .zero with
  | none => return none
  | some (p, entries) =>
    set { m with entries := entries }
    return some p

/-! ### The operations -/

/-- The new entry behind the list. -/
def linkEntry (e : Option Pointer) : ListM PUnit := do
  let m ← get
  if m.ipmiReqEntries = none then modify fun m => { m with ipmiReqEntries := e }
  else assign m.ipmiReqEntriesTail fun x => { x with next := e }

def ipmiReqAddEntry (msg : RqMsg) (seq : UInt8) (choice : Option Nat) : ListM (Option Pointer) := do
  let e ← mallocEntry choice
  if e = none then return none
  else
    assign e fun x => { x with msg := msg, rqSeq := seq }
    linkEntry e
    modify fun m => { m with ipmiReqEntriesTail := e }
    return e

/-- The condition of the loops. -/
def Entry.misses (seq cmd : UInt8) (x : Entry) : Prop := x.rqSeq ≠ seq ∨ x.msg.cmd ≠ cmd

instance (seq cmd : UInt8) (x : Entry) : Decidable (x.misses seq cmd) := inferInstanceAs (Decidable (_ ∨ _))

def lookupLoop (seq cmd : UInt8) : Nat → Option Pointer → ListM (Option Pointer)
  | 0, _ => throw .endless
  | fuel + 1, e =>
    if e = none then return none
    else do
      let x ← load e
      if x.misses seq cmd then
        if samePointer e x.next then return none
        else lookupLoop seq cmd fuel x.next
      else return e

def ipmiReqLookupEntry (fuel : Nat) (seq cmd : UInt8) : ListM (Option Pointer) := do
  let m ← get
  lookupLoop seq cmd fuel m.ipmiReqEntries

/-- The loop of `ipmi_req_remove_entry`, with `p` and `e`. -/
def removeLoop (seq cmd : UInt8) : Nat → Option Pointer → Option Pointer →
    ListM (Option Pointer × Option Pointer)
  | 0, _, _ => throw .endless
  | fuel + 1, p, e =>
    if e = none then return (p, none)
    else do
      let x ← load e
      if x.misses seq cmd then removeLoop seq cmd fuel e x.next
      else return (p, e)

/-- "If entry being removed is first in list, fix up list head". -/
def Mem.fixHead (p e savedNextEntry : Option Pointer) (m : Mem) : Mem :=
  if samePointer m.ipmiReqEntries e then
    if !samePointer m.ipmiReqEntries p then { m with ipmiReqEntries := p }
    else { m with ipmiReqEntries := savedNextEntry }
  else m

/-- "If entry being removed is last in list, fix up list tail". -/
def Mem.fixTail (p e : Option Pointer) (m : Mem) : Mem :=
  if samePointer m.ipmiReqEntriesTail e then
    if !samePointer m.ipmiReqEntriesTail p then { m with ipmiReqEntriesTail := p }
    else { m with ipmiReqEntriesTail := none }
  else m

/-- The message of an entry is freed with it. -/
def freeMessage (e : Option Pointer) : ListM PUnit := do
  let x ← load e
  match x.msgData with
  | none => pure ⟨⟩
  | some d => do
    let m ← get
    if m.messages.Live d then
      modify fun m => { m with messages := m.messages.free d }
      assign e fun x => { x with msgData := none }
    else throw .invalidPointer

/-- What `ipmi_req_remove_entry` does with the entry that it has found. -/
def unlinkEntry (p e : Option Pointer) : ListM PUnit := do
  let x ← load e
  let y ← load p
  assign p fun y' => { y' with next := if samePointer y.next x.next then none else x.next }
  modify (Mem.fixHead p e x.next)
  modify (Mem.fixTail p e)
  freeMessage e
  free e

def ipmiReqRemoveEntry (fuel : Nat) (seq cmd : UInt8) : ListM PUnit := do
  let m ← get
  let (p, e) ← removeLoop seq cmd fuel m.ipmiReqEntries m.ipmiReqEntries
  if e = none then pure ⟨⟩ else unlinkEntry p e

def clearLoop : Nat → Option Pointer → ListM PUnit
  | 0, _ => throw .endless
  | fuel + 1, e =>
    if e = none then pure ⟨⟩
    else do
      let x ← load e
      free e
      clearLoop fuel x.next

def ipmiReqClearEntries (fuel : Nat) : ListM PUnit := do
  let m ← get
  clearLoop fuel m.ipmiReqEntries
  modify fun m => { m with ipmiReqEntries := none, ipmiReqEntriesTail := none }

/-- A call of one of the four functions, or a write of a caller through a pointer that is still valid: to the
fields of an entry, or to `msg_data`, with a new message. -/
inductive Op where
  | add (msg : RqMsg) (seq : UInt8) (choice : Option Nat)
  | lookup (seq cmd : UInt8)
  | remove (seq cmd : UInt8)
  | clear
  | write (p : Pointer) (msg : RqMsg) (seq : UInt8) (level : Nat)
  | attach (p : Pointer) (message : List UInt8) (choice : Option Nat)

def writeEntry (p : Pointer) (msg : RqMsg) (seq : UInt8) (level : Nat) : ListM PUnit := do
  let m ← get
  if m.entries.Live p then assign (some p) fun x => { x with msg := msg, rqSeq := seq, bridgingLevel := level }
  else pure ⟨⟩

def attachMessage (p : Pointer) (message : List UInt8) (choice : Option Nat) : ListM PUnit := do
  let m ← get
  if m.entries.Live p then
    match choice.bind fun addr => m.messages.malloc addr message with
    | none => pure ⟨⟩
    | some (d, messages) => do
      set { m with messages := messages }
      assign (some p) fun x => { x with msgData := some d }
  else pure ⟨⟩

/-- An operation, and the pointer that it returns. -/
def Op.run (fuel : Nat) : Op → ListM (Option Pointer)
  | add msg seq choice => ipmiReqAddEntry msg seq choice
  | lookup seq cmd => ipmiReqLookupEntry fuel seq cmd
  | remove seq cmd => do
    ipmiReqRemoveEntry fuel seq cmd
    return none
  | clear => do
    ipmiReqClearEntries fuel
    return none
  | write p msg seq level => do
    writeEntry p msg seq level
    return none
  | attach p message choice => do
    attachMessage p message choice
    return none

/-- A sequence of operations, and what they return. -/
def run (fuel : Nat) : List Op → ListM (List (Option Pointer))
  | [] => return []
  | op :: rest => do
    let p ← op.run fuel
    let ps ← run fuel rest
    return p :: ps

/-! ### Freed entries -/

section dead
variable (p : Pointer)

theorem load_keeps {I : Mem → Prop} (q : Option Pointer) : Keeps I (load q) := by
  cases q with
  | none => exact .throw _
  | some q =>
    refine .bind .get fun m => ?_
    cases m.entries.load q with
    | none => exact .throw _
    | some e => exact .pure e

theorem assign_keeps_dead (q : Option Pointer) (f : Entry → Entry) :
    Keeps (fun m => m.entries.Dead p) (assign q f) := by
  cases q with
  | none => exact .throw _
  | some q => exact .bind (load_keeps _) fun e => .modify fun m hdead => hdead.put q _

theorem free_keeps_dead (q : Option Pointer) : Keeps (fun m => m.entries.Dead p) (free q) := by
  cases q with
  | none => exact .pure _
  | some q => exact .bind .get fun m => .ite (.modify fun m hdead => hdead.put q _) (.throw _)

theorem add_keeps_dead (msg : RqMsg) (seq : UInt8) (choice : Option Nat) :
    Keeps (fun m => m.entries.Dead p) (ipmiReqAddEntry msg seq choice) := by
  have hmalloc : Keeps (fun m => m.entries.Dead p) (mallocEntry choice) := by
    intro m hdead
    unfold mallocEntry
    rw [ends_get_bind]
    cases hbind : choice.bind fun addr => m.entries.malloc addr .zero with
    | none => exact hdead
    | some r =>
      obtain ⟨addr, -, haddr⟩ := Option.bind_eq_some_iff.1 hbind
      exact hdead.malloc haddr
  have hlink : ∀ e, Keeps (fun m => m.entries.Dead p) (linkEntry e) := fun e =>
    .bind .get fun m => .ite (.modify fun m hdead => hdead) (assign_keeps_dead p _ _)
  refine .bind hmalloc fun e => .ite (.pure _) ?_
  refine .bind (assign_keeps_dead p _ _) fun _ => .bind (hlink e) fun _ => ?_
  exact .bind (.modify fun m hdead => hdead) fun _ => .pure _

theorem lookup_keeps {I : Mem → Prop} (seq cmd : UInt8) (fuel : Nat) (e : Option Pointer) :
    Keeps I (lookupLoop seq cmd fuel e) := by
  induction fuel generalizing e with
  | zero => exact .throw _
  | succ fuel ih =>
    exact .ite (.pure _) (.bind (load_keeps e) fun x => .ite (.ite (.pure _) (ih _)) (.pure _))

theorem removeLoop_keeps {I : Mem → Prop} (seq cmd : UInt8) (fuel : Nat) (q e : Option Pointer) :
    Keeps I (removeLoop seq cmd fuel q e) := by
  induction fuel generalizing q e with
  | zero => exact .throw _
  | succ fuel ih => exact .ite (.pure _) (.bind (load_keeps e) fun x => .ite (ih _ _) (.pure _))

theorem unlink_keeps_dead (q e : Option Pointer) : Keeps (fun m => m.entries.Dead p) (unlinkEntry q e) := by
  have hhead : ∀ (n : Option Pointer) (m : Mem), (Mem.fixHead q e n m).entries = m.entries := by
    intro n m
    unfold Mem.fixHead
    split
    · split
      · rfl
      · rfl
    · rfl
  have htail : ∀ m : Mem, (Mem.fixTail q e m).entries = m.entries := by
    intro m
    unfold Mem.fixTail
    split
    · split
      · rfl
      · rfl
    · rfl
  have hmessage : Keeps (fun m => m.entries.Dead p) (freeMessage e) := by
    refine .bind (load_keeps e) fun x => ?_
    cases x.msgData with
    | none => exact .pure _
    | some d =>
      exact .bind .get fun m => .ite (.bind (.modify fun m hdead => hdead) fun _ => assign_keeps_dead p _ _)
        (.throw _)
  refine .bind (load_keeps e) fun x => .bind (load_keeps q) fun y => ?_
  refine .bind (assign_keeps_dead p _ _) fun _ => .bind (.modify fun m hdead => ?_) fun _ => ?_
  · rw [hhead]
    exact hdead
  refine .bind (.modify fun m hdead => ?_) fun _ => ?_
  · rw [htail]
    exact hdead
  exact .bind hmessage fun _ => free_keeps_dead p e

theorem clearLoop_keeps_dead (fuel : Nat) (e : Option Pointer) :
    Keeps (fun m => m.entries.Dead p) (clearLoop fuel e) := by
  induction fuel generalizing e with
  | zero => exact .throw _
  | succ fuel ih =>
    exact .ite (.pure _) (.bind (load_keeps e) fun x => .bind (free_keeps_dead p e) fun _ => ih _)

theorem Op.keeps_dead (fuel : Nat) (op : Op) : Keeps (fun m => m.entries.Dead p) (op.run fuel) := by
  cases op with
  | add msg seq choice => exact add_keeps_dead p msg seq choice
  | lookup seq cmd => exact .bind .get fun m => lookup_keeps seq cmd fuel _
  | remove seq cmd =>
    refine .bind (.bind .get fun m => .bind (removeLoop_keeps seq cmd fuel _ _) fun r => ?_) fun _ => .pure _
    exact .ite (.pure _) (unlink_keeps_dead p _ _)
  | clear =>
    exact .bind (.bind .get fun m => .bind (clearLoop_keeps_dead p fuel _) fun _ =>
      .modify fun m hdead => hdead) fun _ => .pure _
  | write q msg seq level =>
    exact .bind (.bind .get fun m => .ite (assign_keeps_dead p _ _) (.pure _)) fun _ => .pure _
  | attach q message choice =>
    refine .bind (fun m hdead => ?_) fun _ => .pure _
    unfold attachMessage
    rw [ends_get_bind]
    split
    · cases choice.bind fun addr => m.messages.malloc addr message with
      | none => exact hdead
      | some r => exact assign_keeps_dead p (some q) _ { m with messages := r.2 } hdead
    · exact hdead

/-- A freed entry stays freed in every run, from every memory: its address may be given out again, but not its
number. -/
theorem run_keeps_dead (fuel : Nat) (ops : List Op) : Keeps (fun m => m.entries.Dead p) (run fuel ops) := by
  induction ops with
  | nil => exact .pure _
  | cons op rest ih => exact .bind (op.keeps_dead p fuel) fun _ => .bind ih fun _ => .pure _

end dead

end KTools.Lanplus.RequestList
