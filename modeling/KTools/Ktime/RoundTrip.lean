import KTools.Ktime.Parser
import Mathlib.Data.List.GetD
import Mathlib.Data.List.TakeWhile

/-!
# Reading a configuration back

A configuration is a list of records in the documented format: five fields, one space between two
fields, one newline after every record, the last one included (`Config`, `encode`). Storing cells that
fit their fields leaves each of them, followed by zeros, in its own field (`storeCells_read`), since the
fields of `struct line_record` do not overlap.

With `processRecord_scan` this says what is stored for a text that is a joined table and two more bytes
(`processRecord_join`). The text of a `Config` is one only when its last byte before the newline is
taken off the last field: that byte is lost (`roundTrips_never`). A blank line after the last record
restores it (`roundTrip_blankLine`).
-/

namespace KTools.Ktime
open KTools.Lib.Grid

/-! ### The fields of `struct line_record` -/

/-- The distance of a field from the start of its record. -/
def fieldOffset : Nat → Nat
  | 0 => 0
  | f + 1 => fieldOffset f + fieldSize f

theorem getFieldAddr_eq {f : Nat} (hf : f < 5) (rec : Nat) :
    getFieldAddr f rec = some (rec + fieldOffset f) := by
  have hcases : f = 0 ∨ f = 1 ∨ f = 2 ∨ f = 3 ∨ f = 4 := by omega
  rcases hcases with rfl | rfl | rfl | rfl | rfl <;>
    simp [getFieldAddr, fieldOffset, fieldSize, Nat.add_assoc]

theorem lt_of_fieldSize_pos {f : Nat} (h : 0 < fieldSize f) : f < 5 := by
  by_contra hge
  obtain ⟨k, rfl⟩ := Nat.exists_eq_add_of_le' (Nat.le_of_not_lt hge)
  simp [fieldSize] at h

theorem fieldOffset_mono {f f' : Nat} (h : f ≤ f') : fieldOffset f ≤ fieldOffset f' := by
  induction h with
  | refl => exact Nat.le_refl _
  | step _ ih => exact Nat.le_trans ih (Nat.le_add_right _ _)

theorem fieldOffset_add_lt {f : Nat} (hf : f < 5) : fieldOffset f + fieldSize f ≤ recordLen := by
  have h : fieldOffset (f + 1) ≤ fieldOffset 5 := fieldOffset_mono hf
  simpa [fieldOffset, fieldSize, recordLen, funcNameLen, offsetLen, procCommSize,
    durationThresholdLen] using h

/-- The address of byte `i` of field `f` of record `r`. -/
def fieldAddr (r f i : Nat) : Nat := r * recordLen + fieldOffset f + i

/-- Bytes of different fields, or of different records, have different addresses. -/
theorem fieldAddr_ne {r f i r' f' i' : Nat} (hi : i < fieldSize f) (hi' : i' < fieldSize f')
    (h : r ≠ r' ∨ f ≠ f') : fieldAddr r f i ≠ fieldAddr r' f' i' := by
  have hb := fieldOffset_add_lt (lt_of_fieldSize_pos (Nat.zero_lt_of_lt hi))
  have hb' := fieldOffset_add_lt (lt_of_fieldSize_pos (Nat.zero_lt_of_lt hi'))
  unfold fieldAddr
  rcases Nat.lt_trichotomy r r' with hr | rfl | hr
  · have := Nat.mul_le_mul_right recordLen (show r + 1 ≤ r' from hr)
    rw [Nat.add_mul] at this
    omega
  · rcases Nat.lt_trichotomy f f' with hf | rfl | hf
    · have : fieldOffset (f + 1) ≤ fieldOffset f' := fieldOffset_mono hf
      simp only [fieldOffset] at this
      omega
    · exact absurd rfl (h.resolve_left fun h => h rfl)
    · have : fieldOffset (f' + 1) ≤ fieldOffset f := fieldOffset_mono hf
      simp only [fieldOffset] at this
      omega
  · have := Nat.mul_le_mul_right recordLen (show r' + 1 ≤ r from hr)
    rw [Nat.add_mul] at this
    omega

/-! ### Storing cells that fit -/

/-- The cell has a field, and the field has room for its text and the terminating NUL. -/
def Fits (x : Cell UInt8) : Prop := x.text.length < fieldSize x.col

theorem Fits.col_lt {x : Cell UInt8} (h : Fits x) : x.col < 5 :=
  lt_of_fieldSize_pos (Nat.zero_lt_of_lt h)

theorem storeCell_own {m : Mem} {x : Cell UInt8} (h : Fits x) (i : Nat) :
    storeCell m x (fieldAddr x.row x.col i) =
      if i < x.text.length then x.text.getD i 0 else m (fieldAddr x.row x.col i) := by
  unfold storeCell fieldAddr
  rw [getFieldAddr_eq h.col_lt]
  simp only [Nat.le_add_right, true_and, Nat.add_lt_add_iff_left, Nat.add_sub_cancel_left]

theorem storeCell_other {m : Mem} {x : Cell UInt8} (h : Fits x) {r f i : Nat} (hi : i < fieldSize f)
    (hne : x.row ≠ r ∨ x.col ≠ f) : storeCell m x (fieldAddr r f i) = m (fieldAddr r f i) := by
  have hfar : ¬ (x.row * recordLen + fieldOffset x.col ≤ fieldAddr r f i ∧
      fieldAddr r f i < x.row * recordLen + fieldOffset x.col + x.text.length) := by
    rintro ⟨hlow, hhigh⟩
    have hlt : fieldAddr r f i - (x.row * recordLen + fieldOffset x.col) < fieldSize x.col := by
      unfold Fits at h
      omega
    refine fieldAddr_ne hlt hi hne ?_
    unfold fieldAddr at hlow ⊢
    omega
  unfold storeCell
  rw [getFieldAddr_eq h.col_lt]
  exact if_neg hfar

theorem storeCells_other {r f i : Nat} (hi : i < fieldSize f) (l : List (Cell UInt8)) :
    ∀ m : Mem, (∀ x ∈ l, Fits x) → (∀ x ∈ l, x.row ≠ r ∨ x.col ≠ f) →
      l.foldl storeCell m (fieldAddr r f i) = m (fieldAddr r f i) := by
  induction l with
  | nil => intro m _ _; rfl
  | cons x l ih =>
    intro m hfit hne
    rw [List.foldl_cons, ih _ (fun y hy => hfit y (List.mem_cons_of_mem _ hy))
      fun y hy => hne y (List.mem_cons_of_mem _ hy)]
    exact storeCell_other (hfit x List.mem_cons_self) hi (hne x List.mem_cons_self)

/-- **Cells that fit do not disturb each other**: after storing them all into zeroed memory, every
field holds its cell's text, then zeros. -/
theorem storeCells_read (l : List (Cell UInt8)) :
    ∀ m : Mem, l.Pairwise Apart → (∀ x ∈ l, Fits x) → ∀ x ∈ l, ∀ i, i < fieldSize x.col →
      m (fieldAddr x.row x.col i) = 0 →
      l.foldl storeCell m (fieldAddr x.row x.col i) = x.text.getD i 0 := by
  induction l with
  | nil => intro m _ _ x hx; cases hx
  | cons y l ih =>
    intro m hpair hfit x hx i hi hzero
    have hfitl : ∀ z ∈ l, Fits z := fun z hz => hfit z (List.mem_cons_of_mem _ hz)
    obtain ⟨hy, hpair⟩ := List.pairwise_cons.1 hpair
    rw [List.foldl_cons]
    rcases List.mem_cons.1 hx with rfl | hx
    · have hne : ∀ z ∈ l, z.row ≠ x.row ∨ z.col ≠ x.col := fun z hz =>
        (hy z hz).imp Ne.symm Ne.symm
      rw [storeCells_other hi l _ hfitl hne, storeCell_own (hfit x List.mem_cons_self), hzero]
      split
      · rfl
      · rw [List.getD_eq_default _ _ (by omega)]
    · refine ih _ hpair hfitl x hx i hi ?_
      rw [storeCell_other (hfit y List.mem_cons_self) hi (hy x hx), hzero]

/-! ### The strings in `all_records` -/

/-- The string in field `f` of record `r`: its bytes up to the first NUL. -/
def fieldString (m : Mem) (r f : Nat) : List UInt8 :=
  ((List.range (fieldSize f)).map fun i => m (fieldAddr r f i)).takeWhile (· ≠ 0)

theorem fieldString_eq {m : Mem} {r f : Nat} {text : List UInt8} (hlen : text.length < fieldSize f)
    (hnul : 0 ∉ text) (h : ∀ i < fieldSize f, m (fieldAddr r f i) = text.getD i 0) :
    fieldString m r f = text := by
  have hbytes : (List.range (fieldSize f)).map (fun i => m (fieldAddr r f i)) =
      text ++ List.replicate (fieldSize f - text.length) 0 := by
    refine List.ext_getElem ?_ fun i hi hi' => ?_
    · simp
      omega
    · simp only [List.length_map, List.length_range] at hi
      simp only [List.getElem_map, List.getElem_range, h i hi, List.getD_eq_getElem?_getD,
        List.getElem_append, List.getElem_replicate]
      split
      · rw [List.getElem?_eq_getElem ‹_›, Option.getD_some]
      · rw [List.getElem?_eq_none (by omega), Option.getD_none]
  obtain ⟨k, hk⟩ := Nat.exists_eq_add_of_lt hlen
  unfold fieldString
  rw [hbytes, List.takeWhile_append_of_pos fun c hc => ?_]
  · rw [hk, show text.length + k + 1 - text.length = k + 1 by omega, List.replicate_succ]
    simp
  · exact decide_eq_true fun h0 => hnul (h0 ▸ hc)

theorem length_fieldString_le {m : Mem} {r f n : Nat} (h : m (fieldAddr r f n) = 0) : (fieldString m r f).length ≤ n := by
  by_contra hle
  have hlt : n < (fieldString m r f).length := Nat.lt_of_not_le hle
  have hget : (fieldString m r f)[n] = m (fieldAddr r f n) := by
    simp only [fieldString, (List.takeWhile_prefix _).getElem, List.getElem_map, List.getElem_range]
  have hne := List.mem_takeWhile_imp (List.getElem_mem hlt)
  rw [hget, h] at hne
  simp at hne

/-- What `process_record` stores for the cells of a joined table followed by two more bytes. -/
theorem processRecord_join {g : List (List (List UInt8))} (hg : g ≠ []) (hline : ∀ texts ∈ g, texts ≠ [])
    (hfree : ∀ texts ∈ g, ∀ text ∈ texts, newline ∉ text ∧ space ∉ text)
    (hfit : ∀ texts ∈ g, ∀ (f : Nat) text, texts[f]? = some text → text.length < fieldSize f) (x y : UInt8) :
    let content := join newline space g ++ [x, y]
    let s := processRecord (bufOf content) content.length
    s.recordCurr = g.length ∧
      ∀ (r : Nat) texts, g[r]? = some texts → ∀ (f : Nat) text, texts[f]? = some text →
        ∀ i < fieldSize f, s.allRecords (fieldAddr r f i) = text.getD i 0 := by
  obtain ⟨calls, last, -, -, -, -, -, hcount, hmem⟩ := processRecord_scan (join newline space g) x y
  have hcells := cells_join (show space ≠ newline by decide) hg hline hfree
  refine ⟨?_, fun r texts hr f text hf i hi => ?_⟩
  · rw [hcount, ← List.length_map (fun l : List UInt8 => l.splitOn space)]
    exact congrArg List.length hcells
  · rw [hmem, hcells]
    refine storeCells_read _ _ (number_pairwise 0 g) (fun x hx => ?_) ⟨r, f, text⟩
      (mem_number.2 ⟨Nat.zero_le _, texts, hr, hf⟩) i hi rfl
    obtain ⟨-, texts', hline', htext⟩ := mem_number.1 hx
    exact hfit texts' (List.mem_of_getElem? hline') _ _ htext

/-! ### Configurations -/

/-- One line of the file: the strings of the five fields. -/
structure RecordText where
  func : List UInt8
  startOffset : List UInt8
  endOffset : List UInt8
  procComm : List UInt8
  durationThreshold : List UInt8

def RecordText.fields (r : RecordText) : List (List UInt8) :=
  [r.func, r.startOffset, r.endOffset, r.procComm, r.durationThreshold]

/-- The documented format: one space between two fields, one newline after every record. -/
def encode (records : List RecordText) : List UInt8 :=
  records.flatMap fun r => [space].intercalate r.fields ++ [newline]

/-- A configuration in the documented format that fits the module's buffers. -/
structure Config where
  records : List RecordText
  nonempty : records ≠ []
  count : records.length ≤ maxRecord
  field_ne : ∀ r ∈ records, ∀ text ∈ r.fields, text ≠ []
  field_free : ∀ r ∈ records, ∀ text ∈ r.fields, newline ∉ text ∧ space ∉ text
  field_fits : ∀ r ∈ records, ∀ (f : Nat) text, r.fields[f]? = some text → text.length < fieldSize f
  size : (encode records).length ≤ maxSize - 1

namespace Config

/-- The state `process_record` leaves for a file. -/
def stored (content : List UInt8) : ParseState := processRecord (bufOf content) content.length

/-- The records and fields read back are the ones that were written. -/
def ReadsBack (records : List RecordText) (content : List UInt8) : Prop :=
  (stored content).recordCurr = records.length ∧
    ∀ (i : Nat) r, records[i]? = some r → ∀ (f : Nat) text, r.fields[f]? = some text →
      fieldString (stored content).allRecords i f = text

def RoundTrips (c : Config) : Prop := ReadsBack c.records (encode c.records)

def grid (records : List RecordText) : List (List (List UInt8)) := records.map RecordText.fields

theorem encode_eq_join {records : List RecordText} (h : records ≠ []) :
    encode records = join newline space (grid records) ++ [newline] := by
  have := flatMap_row_eq_join newline space (g := grid records) (by simpa [grid] using h)
  rw [← this, grid, List.flatMap_map, encode]

/-- The table whose last cell has lost its last byte. -/
def lastCut (records : List RecordText) (last : RecordText) : List (List (List UInt8)) :=
  grid records ++ [[last.func, last.startOffset, last.endOffset, last.procComm,
    last.durationThreshold.dropLast]]

theorem encode_eq_lastCut (records : List RecordText) {last : RecordText}
    (h : last.durationThreshold ≠ []) :
    encode (records ++ [last]) =
      join newline space (lastCut records last) ++ [last.durationThreshold.getLast h, newline] := by
  have hfields : last.fields = [last.func, last.startOffset, last.endOffset, last.procComm] ++
      [last.durationThreshold.dropLast ++ [last.durationThreshold.getLast h]] := by
    rw [List.dropLast_append_getLast h]
    rfl
  rw [encode_eq_join (by simp), grid, List.map_append, List.map_singleton, hfields,
    join_append_last]
  simp [lastCut, grid]

section
variable (c : Config)

theorem exists_last : ∃ records last, c.records = records ++ [last] :=
  ⟨_, _, (List.dropLast_append_getLast c.nonempty).symm⟩

/-- A cell of the cut table is a cell of the configuration, or a part of one. -/
theorem lastCut_cell {records : List RecordText} {last : RecordText}
    (hc : c.records = records ++ [last]) {texts} (hline : texts ∈ lastCut records last) {f : Nat} {text}
    (htext : texts[f]? = some text) :
    ∃ r ∈ c.records, ∃ full, r.fields[f]? = some full ∧ text <+: full := by
  rw [hc]
  rcases List.mem_append.1 hline with hline | hline
  · obtain ⟨r, hr, rfl⟩ := List.mem_map.1 hline
    exact ⟨r, List.mem_append_left _ hr, text, htext, List.prefix_rfl⟩
  · rw [List.mem_singleton.1 hline] at htext
    refine ⟨last, by simp, ?_⟩
    match f with
    | 0 | 1 | 2 | 3 => exact ⟨text, htext, List.prefix_rfl⟩
    | 4 =>
      obtain rfl : last.durationThreshold.dropLast = text := by simpa using htext
      exact ⟨_, rfl, List.dropLast_prefix _⟩
    | _ + 5 => simp at htext

/-- **What is stored for a configuration**: all records, with every byte except the last one of the
last field, which is never copied. -/
theorem stored_encode {records : List RecordText} {last : RecordText}
    (hc : c.records = records ++ [last]) :
    (stored (encode c.records)).recordCurr = c.records.length ∧
      ∀ (r : Nat) texts, (lastCut records last)[r]? = some texts →
        ∀ (f : Nat) text, texts[f]? = some text → ∀ i < fieldSize f,
          (stored (encode c.records)).allRecords (fieldAddr r f i) = text.getD i 0 := by
  have hlast : last ∈ c.records := by simp [hc]
  have hne : last.durationThreshold ≠ [] := c.field_ne last hlast _ (by simp [RecordText.fields])
  have henc := encode_eq_lastCut records hne
  rw [← hc] at henc
  have h := processRecord_join (g := lastCut records last) (by simp [lastCut]) ?_ ?_ ?_
    (last.durationThreshold.getLast hne) newline
  · rw [← henc] at h
    refine ⟨?_, h.2⟩
    rw [stored, h.1, hc]
    simp [lastCut, grid]
  · intro texts hline
    rcases List.mem_append.1 hline with hline | hline
    · obtain ⟨r, -, rfl⟩ := List.mem_map.1 hline
      simp [RecordText.fields]
    · rw [List.mem_singleton.1 hline]
      simp
  · intro texts hline text htext
    obtain ⟨f, hf⟩ := List.mem_iff_getElem?.1 htext
    obtain ⟨r, hr, full, hfull, hpre⟩ := lastCut_cell c hc hline hf
    obtain ⟨hn, hs⟩ := c.field_free r hr full (List.mem_of_getElem? hfull)
    exact ⟨fun h => hn (hpre.subset h), fun h => hs (hpre.subset h)⟩
  · intro texts hline f text htext
    obtain ⟨r, hr, full, hfull, hpre⟩ := lastCut_cell c hc hline htext
    exact Nat.lt_of_le_of_lt hpre.length_le (c.field_fits r hr f full hfull)

/-- **No configuration in the documented format is read back as written**: the string stored for the
last field of the last record is shorter than the one in the file. -/
theorem roundTrips_never : ¬ c.RoundTrips := by
  obtain ⟨records, last, hc⟩ := exists_last c
  have hlast : last ∈ c.records := by simp [hc]
  have hne : last.durationThreshold ≠ [] := c.field_ne last hlast _ (by simp [RecordText.fields])
  have hfit := c.field_fits last hlast 4 last.durationThreshold rfl
  intro hround
  have hfield := hround.2 records.length last (by simp [hc]) 4 last.durationThreshold rfl
  have hcut := (stored_encode c hc).2 records.length _ (by simp [lastCut, grid]; rfl) 4 _ rfl
    (last.durationThreshold.length - 1) (by omega)
  rw [List.getD_eq_default _ _ (by simp)] at hcut
  have hshort := length_fieldString_le hcut
  rw [hfield] at hshort
  have := List.length_pos_iff.2 hne
  omega

/-- With a blank line after the last record, a configuration of NUL-free strings is read back. -/
theorem roundTrip_blankLine (hnul : ∀ r ∈ c.records, ∀ text ∈ r.fields, 0 ∉ text) :
    ReadsBack c.records (encode c.records ++ [newline]) := by
  have henc : encode c.records ++ [newline] =
      join newline space (grid c.records) ++ [newline, newline] := by
    rw [encode_eq_join c.nonempty, List.append_assoc]
    rfl
  have h := processRecord_join (g := grid c.records) (by simpa [grid] using c.nonempty) ?_ ?_ ?_
    newline newline
  · rw [← henc] at h
    refine ⟨by rw [stored, h.1]; simp [grid], fun i r hr f text hf => ?_⟩
    have hmem := List.mem_of_getElem? hr
    exact fieldString_eq (c.field_fits r hmem f text hf) (hnul r hmem text (List.mem_of_getElem? hf))
      (h.2 i r.fields (by simp [grid, hr]) f text hf)
  · intro texts hline
    obtain ⟨r, -, rfl⟩ := List.mem_map.1 hline
    simp [RecordText.fields]
  · intro texts hline text htext
    obtain ⟨r, hr, rfl⟩ := List.mem_map.1 hline
    exact c.field_free r hr text htext
  · intro texts hline f text htext
    obtain ⟨r, hr, rfl⟩ := List.mem_map.1 hline
    exact c.field_fits r hr f text htext

end

/-- `vfs_read 0 9 NULL 20`, and a newline. -/
def sample : Config where
  records := [⟨[118, 102, 115, 95, 114, 101, 97, 100], [48], [57], [78, 85, 76, 76], [50, 48]⟩]
  nonempty := by decide
  count := by decide
  field_ne := by decide
  field_free := by decide
  field_fits := by
    intro r hr f text hf
    obtain rfl := List.mem_singleton.1 hr
    match f with
    | 0 | 1 | 2 | 3 | 4 =>
      obtain rfl := Option.some.inj hf
      decide
    | _ + 5 => simp [RecordText.fields] at hf
  size := by decide

/-- The threshold `20` of the sample is stored as `2`. -/
theorem sample_not_roundTrips : ¬ ∀ c : Config, c.RoundTrips := by
  intro h
  have hfield := (h sample).2 0 _ rfl 4 _ rfl
  revert hfield
  decide +kernel

end Config

end KTools.Ktime
