import KTools.Lib.Grid
import Mathlib.Data.List.Forall2

/-!
# The configuration parser of ktime_snoop

`process_record` walks the configuration text once, with a cursor for the byte, the record and the
field, and copies a field into `all_records` at every space, at every newline and at the byte before
the last one (`processStep`). The state keeps the memory behind `all_records`, which is one flat
allocation, and the list of `copy_field` calls made so far.

`processRecord_scan` says what the walk does: on a text `t ++ [x, y]` it makes one call for each cell
of `t`, in order, whatever `x` and `y` are, and one more call that copies nothing when `x` is a space.
So `x`, the last byte of the last field of a file that ends in one newline, is never copied.
-/

namespace KTools.Ktime
open KTools.Lib.Grid

/-! ### Sizes -/

def maxSize : Nat := 8192
def fileNameLen : Nat := 32
def funcNameLen : Nat := 128
def offsetLen : Nat := 8
def procCommSize : Nat := 32
def durationThresholdLen : Nat := 16

def recordLen : Nat := funcNameLen + offsetLen * 2 + procCommSize + durationThresholdLen

def maxRecord : Nat := maxSize / recordLen

def newline : UInt8 := 10
def space : UInt8 := 32

/-! ### `struct line_record` -/

/-- The bytes of an allocation, by their offset in it. -/
abbrev Mem := Nat → UInt8

/-- `get_field_addr`: the address of a field of the record at `rec`; `none` is NULL. -/
def getFieldAddr (fieldCur : Nat) (rec : Nat) : Option Nat :=
  match fieldCur with
  | 0 => some rec
  | 1 => some (rec + funcNameLen)
  | 2 => some (rec + funcNameLen + offsetLen)
  | 3 => some (rec + funcNameLen + offsetLen + offsetLen)
  | 4 => some (rec + funcNameLen + offsetLen + offsetLen + procCommSize)
  | _ => none

/-- The size of the array `get_field_addr` points to. -/
def fieldSize : Nat → Nat
  | 0 => funcNameLen
  | 1 => offsetLen
  | 2 => offsetLen
  | 3 => procCommSize
  | 4 => durationThresholdLen
  | _ => 0

/-! ### `copy_field` -/

/-- The arguments of a `copy_field` call. -/
structure CopyCall where
  whichRecord : Nat
  whichField : Nat
  fieldStart : Int
  fieldEnd : Int
  deriving DecidableEq

/-- The number of bytes between the two cursors; negative when `field_end` lies before `field_start`. -/
def CopyCall.length (c : CopyCall) : Int := c.fieldEnd + 1 - c.fieldStart

/-- The first `n` turns of the copy loop, from `buf[src]` on to `m[dst]` on. -/
def copyBytes (buf : Mem) (src dst : Nat) : Nat → Mem → Mem
  | 0, m => m
  | n + 1, m => fun a => if a = dst + n then buf (src + n) else copyBytes buf src dst n m a

def copyField (buf : Mem) (c : CopyCall) (m : Mem) : Mem :=
  match getFieldAddr c.whichField (c.whichRecord * recordLen) with
  | some tmpField => copyBytes buf c.fieldStart.toNat tmpField c.length.toNat m
  -- `tmp_field` is NULL: the store faults, and no byte of `all_records` changes
  | none => m

theorem copyBytes_apply (buf : Mem) (src dst n : Nat) (m : Mem) (a : Nat) :
    copyBytes buf src dst n m a = if dst ≤ a ∧ a < dst + n then buf (src + (a - dst)) else m a := by
  induction n with
  | zero => rw [copyBytes, if_neg (by omega)]
  | succ n ih =>
    simp only [copyBytes, ih]
    by_cases ha : a = dst + n
    · rw [if_pos ha, if_pos (by omega), ha, Nat.add_sub_cancel_left]
    · rw [if_neg ha]
      by_cases hin : dst ≤ a ∧ a < dst + n
      · rw [if_pos hin, if_pos (by omega)]
      · rw [if_neg hin, if_neg (by omega)]

/-! ### `process_record` -/

/-- The cursors of `process_record`, the memory behind `all_records` and the calls made so far. -/
structure ParseState where
  globalCurr : Nat
  recordCurr : Nat
  fieldCurr : Nat
  fieldStart : Nat
  allRecords : Mem
  calls : List CopyCall

/-- `field_end = global_curr - 1`, then the `copy_field` call. -/
def ParseState.copy (buf : Mem) (s : ParseState) : ParseState :=
  let call : CopyCall := ⟨s.recordCurr, s.fieldCurr, s.fieldStart, (s.globalCurr : Int) - 1⟩
  { s with allRecords := copyField buf call s.allRecords, calls := s.calls ++ [call] }

/-- The body of the loop. -/
def processStep (buf : Mem) (bytesRead : Nat) (s : ParseState) : ParseState :=
  let s :=
    if buf s.globalCurr = newline ∨ s.globalCurr + 2 = bytesRead then
      { s.copy buf with
        fieldCurr := 0, fieldStart := s.globalCurr + 1, recordCurr := s.recordCurr + 1 }
    else s
  let s :=
    if buf s.globalCurr = space then
      { s.copy buf with fieldCurr := s.fieldCurr + 1, fieldStart := s.globalCurr + 1 }
    else s
  { s with globalCurr := s.globalCurr + 1 }

def processLoop (buf : Mem) (bytesRead : Nat) : Nat → ParseState → ParseState
  | 0, s => s
  | n + 1, s => processLoop buf bytesRead n (processStep buf bytesRead s)

/-- `process_record`; the loop runs while `global_curr <= bytes_read - 2`, and `all_records` starts
zeroed. The final `recordCurr` is `tot_records`. -/
def processRecord (buf : Mem) (bytesRead : Nat) : ParseState :=
  processLoop buf bytesRead (bytesRead - 1) ⟨0, 0, 0, 0, fun _ => 0, []⟩

/-- `buf` after `kernel_read`: the file's bytes, then the zeros of the `memset`. -/
def bufOf (content : List UInt8) : Mem := fun i => content.getD i 0

/-! ### The walk, cell by cell -/

/-- What a call that copies a cell's text leaves in `all_records`. -/
def storeCell (m : Mem) (x : Cell UInt8) : Mem :=
  match getFieldAddr x.col (x.row * recordLen) with
  | some addr => fun a => if addr ≤ a ∧ a < addr + x.text.length then x.text.getD (a - addr) 0 else m a
  | none => m

/-- The call copies exactly the cell. -/
structure Copies (c : CopyCall) (x : Cell UInt8) : Prop where
  record : c.whichRecord = x.row
  field : c.whichField = x.col
  length : c.length = x.text.length

/-- The part of the text between the start of the field and the cursor. -/
def ParseState.cell (content : List UInt8) (s : ParseState) : Cell UInt8 :=
  ⟨s.recordCurr, s.fieldCurr, (content.take s.globalCurr).drop s.fieldStart⟩

theorem copy_copies {content : List UInt8} {s : ParseState} (hstart : s.fieldStart ≤ s.globalCurr)
    (hlen : s.globalCurr ≤ content.length) :
    Copies ⟨s.recordCurr, s.fieldCurr, s.fieldStart, (s.globalCurr : Int) - 1⟩ (s.cell content) := by
  refine ⟨rfl, rfl, ?_⟩
  simp only [CopyCall.length, ParseState.cell, List.length_drop, List.length_take]
  omega

theorem copy_store {content : List UInt8} {s : ParseState} (hstart : s.fieldStart ≤ s.globalCurr)
    (hlen : s.globalCurr ≤ content.length) :
    (s.copy (bufOf content)).allRecords = storeCell s.allRecords (s.cell content) := by
  have hcount : (CopyCall.mk s.recordCurr s.fieldCurr s.fieldStart ((s.globalCurr : Int) - 1)).length
      = (s.cell content).text.length := (copy_copies hstart hlen).length
  have htext : (s.cell content).text.length = s.globalCurr - s.fieldStart := by
    simp only [ParseState.cell, List.length_drop, List.length_take]
    omega
  unfold ParseState.copy copyField storeCell
  simp only [ParseState.cell] at hcount htext ⊢
  cases getFieldAddr s.fieldCurr (s.recordCurr * recordLen) with
  | none => rfl
  | some addr =>
    funext a
    simp only [hcount, Int.toNat_natCast, copyBytes_apply]
    refine ite_congr rfl (fun ha => ?_) fun _ => rfl
    rw [htext] at ha
    simp only [bufOf, List.getD_eq_getElem?_getD, List.getElem?_drop]
    rw [List.getElem?_take_of_lt (by omega)]

theorem cell_eq {content pre rest : List UInt8} {s : ParseState} (hcontent : content = pre ++ rest)
    (hcurr : s.globalCurr = pre.length) :
    s.cell content = ⟨s.recordCurr, s.fieldCurr, pre.drop s.fieldStart⟩ := by
  rw [ParseState.cell, hcurr, hcontent, List.take_left]

section step
variable {content pre rest : List UInt8} {c : UInt8} {s : ParseState}

theorem bufOf_curr (hcontent : content = pre ++ c :: rest) (hcurr : s.globalCurr = pre.length) :
    bufOf content s.globalCurr = c := by
  simp [bufOf, hcontent, hcurr]

theorem processStep_newline (hcontent : content = pre ++ newline :: rest)
    (hcurr : s.globalCurr = pre.length) :
    processStep (bufOf content) content.length s =
      { s.copy (bufOf content) with
        globalCurr := s.globalCurr + 1, fieldCurr := 0, fieldStart := s.globalCurr + 1
        recordCurr := s.recordCurr + 1 } := by
  have hbuf := bufOf_curr hcontent hcurr
  have hns : ¬ (newline : UInt8) = space := by decide
  simp [processStep, ParseState.copy, hbuf, hns]

theorem processStep_space (hcontent : content = pre ++ space :: rest)
    (hcurr : s.globalCurr = pre.length) (hrest : rest.length ≠ 1) :
    processStep (bufOf content) content.length s =
      { s.copy (bufOf content) with
        globalCurr := s.globalCurr + 1, fieldCurr := s.fieldCurr + 1
        fieldStart := s.globalCurr + 1 } := by
  have hbuf := bufOf_curr hcontent hcurr
  have hlast : ¬ s.globalCurr + 2 = content.length := by simp [hcontent, hcurr]; omega
  have hsn : ¬ (space : UInt8) = newline := by decide
  simp [processStep, ParseState.copy, hbuf, hlast, hsn]

theorem processStep_other (hcontent : content = pre ++ c :: rest) (hcurr : s.globalCurr = pre.length)
    (hrest : rest.length ≠ 1) (hnewline : c ≠ newline) (hspace : c ≠ space) :
    processStep (bufOf content) content.length s = { s with globalCurr := s.globalCurr + 1 } := by
  have hbuf := bufOf_curr hcontent hcurr
  have hlast : ¬ s.globalCurr + 2 = content.length := by simp [hcontent, hcurr]; omega
  simp [processStep, hbuf, hlast, hnewline, hspace]

/-- The byte before the last one ends a record whatever it is; a space there also ends a field, of
the next record, that starts after the cursor. -/
theorem processStep_last (hcontent : content = pre ++ c :: rest) (hcurr : s.globalCurr = pre.length)
    (hrest : rest.length = 1) :
    ∃ last : CopyCall, last.whichRecord = s.recordCurr + 1 ∧ last.whichField = 0 ∧ last.length = -1 ∧
      processStep (bufOf content) content.length s =
        { globalCurr := s.globalCurr + 1
          recordCurr := s.recordCurr + 1
          fieldCurr := if c = space then 1 else 0
          fieldStart := s.globalCurr + 1
          allRecords := (s.copy (bufOf content)).allRecords
          calls := (s.copy (bufOf content)).calls ++ if c = space then [last] else [] } := by
  have hbuf := bufOf_curr hcontent hcurr
  have hlast : s.globalCurr + 2 = content.length := by simp [hcontent, hcurr, hrest]
  refine ⟨⟨s.recordCurr + 1, 0, s.globalCurr + 1, (s.globalCurr : Int) - 1⟩, rfl, rfl, ?_, ?_⟩
  · simp only [CopyCall.length]
    omega
  · by_cases hspace : c = space
    · have hnone : (CopyCall.length ⟨s.recordCurr + 1, 0, s.globalCurr + 1,
          (s.globalCurr : Int) - 1⟩).toNat = 0 := by
        simp only [CopyCall.length]
        omega
      have hcopy : ∀ m, copyField (bufOf content)
          ⟨s.recordCurr + 1, 0, s.globalCurr + 1, (s.globalCurr : Int) - 1⟩ m = m := by
        intro m
        simp only [copyField, getFieldAddr, hnone, copyBytes]
      subst hspace
      simp [processStep, ParseState.copy, hbuf, hlast, hcopy]
    · simp [processStep, ParseState.copy, hbuf, hlast, hspace]

end step

/-- The walk over the rest `t` of a text `pre ++ t ++ [x, y]`, from a cursor at the end of `pre`:
the cells the scanner finds are copied, and the record counter has passed all rows. -/
theorem processLoop_scan (content : List UInt8) (x y : UInt8) (t : List UInt8) :
    ∀ (pre : List UInt8) (s : ParseState), content = pre ++ (t ++ [x, y]) →
      s.globalCurr = pre.length → s.fieldStart ≤ pre.length →
      ∃ calls last,
        List.Forall₂ Copies calls
          (scan newline space s.recordCurr s.fieldCurr (pre.drop s.fieldStart) t) ∧
        last.whichRecord = s.recordCurr + (t.splitOn newline).length ∧ last.whichField = 0 ∧
        last.length = -1 ∧
        processLoop (bufOf content) content.length (t.length + 1) s =
          { globalCurr := content.length - 1
            recordCurr := s.recordCurr + (t.splitOn newline).length
            fieldCurr := if x = space then 1 else 0
            fieldStart := content.length - 1
            allRecords := (scan newline space s.recordCurr s.fieldCurr
              (pre.drop s.fieldStart) t).foldl storeCell s.allRecords
            calls := s.calls ++ calls ++ if x = space then [last] else [] } := by
  induction t with
  | nil =>
    intro pre s hcontent hcurr hstart
    obtain ⟨last, hrec, hfield, hlen, hstep⟩ := processStep_last hcontent hcurr rfl
    have hle : s.globalCurr ≤ content.length := by simp [hcontent, hcurr]
    have hcell := cell_eq hcontent hcurr
    refine ⟨[_], last, List.Forall₂.cons (hcell ▸ copy_copies (hcurr ▸ hstart) hle) .nil, by simpa using hrec,
      hfield, hlen, ?_⟩
    have hend : s.globalCurr + 1 = content.length - 1 := by simp [hcontent, hcurr]
    rw [List.length_nil, processLoop, processLoop, hstep, copy_store (hcurr ▸ hstart) hle, hcell, hend]
    simp [scan, ParseState.copy]
  | cons c t ih =>
    intro pre s hcontent hcurr hstart
    have hle : s.globalCurr ≤ content.length := by simp [hcontent, hcurr]
    have hcell := cell_eq hcontent hcurr
    have hnext : content = (pre ++ [c]) ++ (t ++ [x, y]) := by simp [hcontent]
    have hrest : (t ++ [x, y]).length ≠ 1 := by simp
    have hcurr' : s.globalCurr + 1 = (pre ++ [c]).length := by simp [hcurr]
    have hdrop : (pre ++ [c]).drop (s.globalCurr + 1) = [] := by simp [hcurr]
    rw [List.length_cons, processLoop, scan]
    by_cases hnewline : c = newline
    · subst hnewline
      have hrows : ((newline :: t).splitOn newline).length = (t.splitOn newline).length + 1 := by
        simp [List.splitOn_cons_eq_if_modifyHead]
      rw [processStep_newline hcontent hcurr, if_pos rfl, hrows]
      obtain ⟨calls, last, hcalls, hrec, hfield, hlen, hloop⟩ := ih (pre ++ [newline])
        { s.copy (bufOf content) with
          globalCurr := s.globalCurr + 1, fieldCurr := 0, fieldStart := s.globalCurr + 1
          recordCurr := s.recordCurr + 1 } hnext hcurr' (Nat.le_of_eq hcurr')
      simp only [hdrop] at hcalls hloop
      refine ⟨_ :: calls, last,
        List.Forall₂.cons (hcell ▸ copy_copies (hcurr ▸ hstart) hle) hcalls, ?_, hfield, hlen, ?_⟩
      · simp only [hrec]
        omega
      · rw [hloop, copy_store (hcurr ▸ hstart) hle, hcell, List.foldl_cons]
        simp [ParseState.copy, Nat.add_comm, Nat.add_left_comm]
    · have hrows : ((c :: t).splitOn newline).length = (t.splitOn newline).length := by
        simp [List.splitOn_cons_eq_if_modifyHead, hnewline]
      rw [if_neg hnewline, hrows]
      by_cases hspace : c = space
      · subst hspace
        rw [processStep_space hcontent hcurr hrest, if_pos rfl]
        obtain ⟨calls, last, hcalls, hrec, hfield, hlen, hloop⟩ := ih (pre ++ [space])
          { s.copy (bufOf content) with
            globalCurr := s.globalCurr + 1, fieldCurr := s.fieldCurr + 1
            fieldStart := s.globalCurr + 1 } hnext hcurr' (Nat.le_of_eq hcurr')
        simp only [hdrop] at hcalls hloop
        refine ⟨_ :: calls, last,
          List.Forall₂.cons (hcell ▸ copy_copies (hcurr ▸ hstart) hle) hcalls, hrec, hfield, hlen, ?_⟩
        rw [hloop, copy_store (hcurr ▸ hstart) hle, hcell, List.foldl_cons]
        simp [ParseState.copy]
      · rw [processStep_other hcontent hcurr hrest hnewline hspace, if_neg hspace]
        have hcur : (pre ++ [c]).drop s.fieldStart = pre.drop s.fieldStart ++ [c] :=
          List.drop_append_of_le_length hstart
        have h := ih (pre ++ [c]) { s with globalCurr := s.globalCurr + 1 } hnext hcurr' (by
          simp only [List.length_append, List.length_singleton]
          omega)
        simp only [hcur] at h
        exact h

/-- **What `process_record` does.** On a text `t ++ [x, y]` the walk stores the cells of `t`, whatever
`x` and `y` are; a space `x` adds a call that copies nothing. -/
theorem processRecord_scan (t : List UInt8) (x y : UInt8) :
    let content := t ++ [x, y]
    let s := processRecord (bufOf content) content.length
    ∃ calls last,
      List.Forall₂ Copies calls (number 0 (cells newline space t)) ∧
      last.whichRecord = (t.splitOn newline).length ∧ last.whichField = 0 ∧ last.length = -1 ∧
      s.calls = calls ++ (if x = space then [last] else []) ∧
      s.recordCurr = (t.splitOn newline).length ∧
      s.allRecords = (number 0 (cells newline space t)).foldl storeCell fun _ => 0 := by
  intro content s
  have hlen : content.length - 1 = t.length + 1 := by simp [content]
  obtain ⟨calls, last, hcalls, hrec, hfield, hlast, hloop⟩ :=
    processLoop_scan content x y t [] ⟨0, 0, 0, 0, fun _ => 0, []⟩ rfl rfl (Nat.le_refl _)
  have hs : s = processLoop (bufOf content) content.length (t.length + 1) ⟨0, 0, 0, 0, fun _ => 0, []⟩ := by
    simp only [s, processRecord, hlen]
  rw [List.drop_nil, scan_eq_number (by decide)] at hcalls hloop
  refine ⟨calls, last, hcalls, by simpa using hrec, hfield, hlast, ?_⟩
  rw [hs, hloop]
  exact ⟨by simp, by simp, rfl⟩

/-- A text of at most one byte makes no call and no record. -/
theorem processRecord_short {content : List UInt8} (h : content.length ≤ 1) :
    processRecord (bufOf content) content.length = ⟨0, 0, 0, 0, fun _ => 0, []⟩ := by
  rw [processRecord, show content.length - 1 = 0 by omega, processLoop]

end KTools.Ktime
