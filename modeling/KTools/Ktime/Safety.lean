import KTools.Ktime.RoundTrip
import KTools.Ktime.Module

/-!
# Out-of-range writes while the module is loaded

A load gets the parameter string, the file and the kernel's answers (`LoadInput`). It is safe when each
`copy_field` call stays in its field, each use of `kp_records` stays in the array and the parameter
string fits `file_name` (`LoadInput.Safe`). The calls are the cells of the file (`processRecord_scan`),
and the registration loops run over the rows of the file, so that the load is safe exactly when the name
and the cells fit (`LoadInput.safe_iff`). Nothing in the module makes them fit: it hands `MAX_SIZE` to
`module_param_string` for an array of `FILE_NAME_LEN` bytes, stores through the NULL of
`get_field_addr`, and compares no counter with `MAX_RECORD`.
-/

namespace KTools.Ktime
open KTools.Lib KTools.Lib.Grid

/-! ### The calls of the parser -/

/-- The call writes inside one field and leaves room for the terminating NUL. -/
structure CopyCall.InField (c : CopyCall) : Prop where
  record : c.whichRecord < maxRecord
  field : getFieldAddr c.whichField (c.whichRecord * recordLen) ≠ none
  length : c.length < fieldSize c.whichField

theorem Copies.inField_iff {c : CopyCall} {x : Cell UInt8} (h : Copies c x) :
    c.InField ↔ x.row < maxRecord ∧ Fits x := by
  constructor
  · rintro ⟨hrecord, -, hlength⟩
    rw [h.record] at hrecord
    rw [h.length, h.field] at hlength
    exact ⟨hrecord, Int.ofNat_lt.1 hlength⟩
  · rintro ⟨hrow, hfits⟩
    refine ⟨h.record ▸ hrow, ?_, ?_⟩
    · rw [h.field, getFieldAddr_eq hfits.col_lt]
      exact Option.some_ne_none _
    · rw [h.length, h.field]
      exact Int.ofNat_lt.2 hfits

theorem forall_inField_iff {calls : List CopyCall} {l : List (Cell UInt8)}
    (h : List.Forall₂ Copies calls l) :
    (∀ c ∈ calls, c.InField) ↔ ∀ x ∈ l, x.row < maxRecord ∧ Fits x := by
  induction h with
  | nil => simp
  | cons hcopies _ ih => simp only [List.forall_mem_cons, hcopies.inField_iff, ih]

/-- The last call, made when the byte before the last one is a space, copies nothing, so that only its
record index counts. -/
theorem inField_last_iff {c : CopyCall} (hfield : c.whichField = 0) (hlength : c.length = -1) :
    c.InField ↔ c.whichRecord < maxRecord := by
  refine ⟨fun h => h.record, fun h => ⟨h, ?_, ?_⟩⟩
  · rw [hfield]
    exact Option.some_ne_none _
  · rw [hfield, hlength]
    decide

/-! ### The cells of a file -/

/-- The table that is copied: `process_record` leaves out the last two bytes. -/
def copiedCells (content : List UInt8) : List (List (List UInt8)) :=
  cells newline space (content.take (content.length - 2))

/-- Every line of the file has a record, and every cell of it a field with room for a NUL; a sixth cell
has no field. A space before the last byte starts one more record. -/
structure ContentFits (content : List UInt8) : Prop where
  rows : (copiedCells content).length ≤ maxRecord
  cells : ∀ texts ∈ copiedCells content, ∀ (f : Nat) text, texts[f]? = some text →
    text.length < fieldSize f
  space : content[content.length - 2]? = some space → (copiedCells content).length < maxRecord

theorem ne_nil_of_mem_cells (row col : UInt8) (t : List UInt8) {texts}
    (h : texts ∈ Grid.cells row col t) : texts ≠ [] := by
  obtain ⟨l, -, rfl⟩ := List.mem_map.1 h
  exact List.splitOn_ne_nil col l

theorem forall_number_iff {g : List (List (List UInt8))} (hline : ∀ texts ∈ g, texts ≠ []) :
    (∀ x ∈ number 0 g, x.row < maxRecord ∧ Fits x) ↔
      g.length ≤ maxRecord ∧
        ∀ texts ∈ g, ∀ (f : Nat) text, texts[f]? = some text → text.length < fieldSize f := by
  constructor
  · intro h
    have hcell : ∀ (r : Nat) texts, g[r]? = some texts → ∀ (f : Nat) text, texts[f]? = some text →
        r < maxRecord ∧ text.length < fieldSize f := fun r texts hr f text hf =>
      h ⟨r, f, text⟩ (mem_number.2 ⟨Nat.zero_le _, texts, hr, hf⟩)
    refine ⟨?_, fun texts hl f text hf => ?_⟩
    · by_contra hmany
      -- a row past the last record has a first cell
      have hrow : maxRecord < g.length := by omega
      obtain ⟨text, rest, hcons⟩ := List.exists_cons_of_ne_nil (hline _ (List.getElem_mem hrow))
      have := (hcell maxRecord _ (List.getElem?_eq_getElem hrow) 0 text (by rw [hcons]; rfl)).1
      omega
    · obtain ⟨r, hr⟩ := List.mem_iff_getElem?.1 hl
      exact (hcell r texts hr f text hf).2
  · rintro ⟨hrows, hfits⟩ x hx
    obtain ⟨-, texts, hrow, htext⟩ := mem_number.1 hx
    refine ⟨?_, hfits texts (List.mem_of_getElem? hrow) _ _ htext⟩
    have := (List.getElem?_eq_some_iff.1 hrow).1
    omega

theorem contentFits_short {content : List UInt8} (h : content.length ≤ 1) : ContentFits content := by
  have hcells : copiedCells content = [[[]]] := by
    rw [copiedCells, show content.length - 2 = 0 by omega, List.take_zero]
    rfl
  refine ⟨by rw [hcells]; decide, ?_, fun _ => by rw [hcells]; decide⟩
  rw [hcells]
  intro texts hl f text hf
  obtain rfl := List.mem_singleton.1 hl
  match f with
  | 0 =>
    obtain rfl : [] = text := by simpa using hf
    decide
  | _ + 1 => simp at hf

theorem eq_append_pair {content : List UInt8} (h : 2 ≤ content.length) :
    ∃ t x y, content = t ++ [x, y] := by
  refine ⟨content.take (content.length - 2), content[content.length - 2],
    content[content.length - 1], ?_⟩
  conv_lhs => rw [← List.take_append_drop (content.length - 2) content]
  rw [List.drop_eq_getElem_cons (by omega), List.drop_eq_getElem_cons (by omega)]
  simp [show content.length - 2 + 1 = content.length - 1 by omega,
    show content.length - 1 + 1 = content.length by omega]

/-- The parser stays in its fields exactly on the files that fit. -/
theorem processRecord_inField_iff (content : List UInt8) :
    (∀ c ∈ (processRecord (bufOf content) content.length).calls, c.InField) ↔ ContentFits content := by
  rcases Nat.lt_or_ge content.length 2 with hshort | hlong
  · rw [processRecord_short (by omega)]
    exact iff_of_true (fun c hc => absurd hc List.not_mem_nil) (contentFits_short (by omega))
  · obtain ⟨t, x, y, rfl⟩ := eq_append_pair hlong
    have hgrid : copiedCells (t ++ [x, y]) = Grid.cells newline space t := by simp [copiedCells]
    have hlast : (t ++ [x, y])[(t ++ [x, y]).length - 2]? = some x := by simp
    have hrows : (Grid.cells newline space t).length = (t.splitOn newline).length := by
      simp [Grid.cells]
    obtain ⟨calls, last, hcopies, hrecord, hfield, hlength, hcalls, -, -⟩ := processRecord_scan t x y
    have hnum := forall_number_iff fun _ hl => ne_nil_of_mem_cells newline space t hl
    rw [hcalls, List.forall_mem_append, forall_inField_iff hcopies, hnum]
    constructor
    · rintro ⟨⟨hcount, hfits⟩, hend⟩
      refine ⟨hgrid ▸ hcount, hgrid ▸ hfits, fun hspace => ?_⟩
      obtain rfl : x = space := Option.some.inj (hlast.symm.trans hspace)
      have := (inField_last_iff hfield hlength).1 (hend last (by simp))
      rwa [hgrid, hrows, ← hrecord]
    · rintro ⟨hcount, hfits, hspace⟩
      rw [hgrid] at hcount hfits hspace
      refine ⟨⟨hcount, hfits⟩, fun c hc => ?_⟩
      by_cases hx : x = space
      · rw [if_pos hx, List.mem_singleton] at hc
        rw [hc, inField_last_iff hfield hlength, hrecord, ← hrows]
        exact hspace (hlast.trans (congrArg some hx))
      · rw [if_neg hx] at hc
        exact absurd hc List.not_mem_nil

theorem processRecord_rows_le (content : List UInt8) :
    (processRecord (bufOf content) content.length).recordCurr ≤ (copiedCells content).length := by
  rcases Nat.lt_or_ge content.length 2 with hshort | hlong
  · rw [processRecord_short (by omega)]
    exact Nat.zero_le _
  · obtain ⟨t, x, y, rfl⟩ := eq_append_pair hlong
    obtain ⟨-, -, -, -, -, -, -, hcount, -⟩ := processRecord_scan t x y
    rw [hcount]
    simp [copiedCells, Grid.cells]

/-! ### The uses of `kp_records` -/

/-- Every index used with `kp_records` so far is below `n`. -/
def AccessesBelow (n : Nat) (s : LoadState) : Prop := ∀ i ∈ s.kpAccesses, i < n

theorem accessesBelow_append {n i : Nat} (hi : i < n) {accesses : List Nat}
    (h : ∀ j ∈ accesses, j < n) : ∀ j ∈ accesses ++ [i], j < n := by
  intro j hj
  rcases List.mem_append.1 hj with hj | hj
  · exact h j hj
  · rw [List.mem_singleton.1 hj]
    exact hi

theorem updateRecord_keeps {n i : Nat} (hi : i < n) (f : KprobeRecord → KprobeRecord) :
    Keeps (AccessesBelow n) (updateRecord i f) :=
  Keeps.modify fun _ h => accessesBelow_append hi h

theorem registerKprobe_keeps {n i : Nat} (hi : i < n) (side : Side) (ret : Int) :
    Keeps (AccessesBelow n) (registerKprobe i side ret) :=
  Keeps.bind (Keeps.modify fun _ h => accessesBelow_append hi h) fun _ =>
    Keeps.ite (Keeps.throw ret) (updateRecord_keeps hi _)

theorem registerRecord_keeps {n i : Nat} (hi : i < n) (env : LoadEnv) (m : Mem) :
    Keeps (AccessesBelow n) (registerRecord env m i) := by
  have hupdate := fun f => updateRecord_keeps hi f
  have hregister := fun side ret => registerKprobe_keeps hi side ret
  unfold registerRecord
  refine Keeps.bind (hupdate _) fun _ => ?_
  cases env.startOffset i with
  | none => exact Keeps.throw _
  | some startOffset =>
    refine Keeps.bind (hupdate _) fun _ => ?_
    cases env.endOffset i with
    | none => exact Keeps.throw _
    | some endOffset =>
      refine Keeps.bind (hupdate _) fun _ => Keeps.bind (hupdate _) fun _ => ?_
      cases env.time i with
      | none => exact Keeps.throw _
      | some time =>
        refine Keeps.bind (hupdate _) fun _ => Keeps.ite ?_ ?_
        · exact Keeps.bind (hupdate _) fun _ => hregister _ _
        · exact Keeps.bind (hupdate _) fun _ => Keeps.bind (hregister _ _) fun _ => hregister _ _

/-- The loops over `tot_records` records use the first `tot_records` elements of `kp_records`. -/
theorem registerRecordKprobes_keeps (env : LoadEnv) (m : Mem) (totRecords : Nat) :
    Keeps (AccessesBelow totRecords) (registerRecordKprobes env m totRecords) :=
  Keeps.countedLoop totRecords 0 fun _ _ hi => registerRecord_keeps (by omega) env m

theorem displayAllKprobes_keeps (totRecords : Nat) :
    Keeps (AccessesBelow totRecords) (displayAllKprobes totRecords) :=
  Keeps.countedLoop totRecords 0 fun _ _ hi =>
    Keeps.modify fun _ h => accessesBelow_append (by omega) h

/-! ### A load -/

/-- What a load of the module gets. -/
structure LoadInput where
  fileName : List UInt8
  fileName_nul : 0 ∉ fileName
  /-- `param_set_copystring` refuses a string that does not fit the declared `MAX_SIZE` bytes. -/
  fileName_length : fileName.length + 1 ≤ maxSize
  content : List UInt8
  /-- `kernel_read` is asked for `MAX_SIZE - 1` bytes. -/
  content_length : content.length ≤ maxSize - 1
  env : LoadEnv

namespace LoadInput

def load (x : LoadInput) : LoadResult := ktimeSnoopInitModule x.env x.content

/-- The load writes nowhere out of range. -/
structure Safe (x : LoadInput) : Prop where
  calls : ∀ c ∈ x.load.parse.calls, c.InField
  kprobes : ∀ i ∈ x.load.probes.kpAccesses, i < maxRecord
  fileName : x.fileName.length < fileNameLen

/-- What `register_record_kprobes` leaves, for the parsed file. -/
def registered (x : LoadInput) : LoadState :=
  let parse := processRecord (bufOf x.content) x.content.length
  finalState (registerRecordKprobes x.env parse.allRecords parse.recordCurr) .zero

theorem load_of_reads {x : LoadInput} (h : x.env.Reads) :
    x.load.parse = processRecord (bufOf x.content) x.content.length ∧
      x.load.probes = finalState (displayAllKprobes x.load.parse.recordCurr) x.registered := by
  obtain ⟨hkmalloc, hopen, hread⟩ := h
  unfold load ktimeSnoopInitModule
  simp [hkmalloc, hopen, hread, registered]

theorem accessesBelow_of_reads {x : LoadInput} (h : x.env.Reads) :
    AccessesBelow x.load.parse.recordCurr x.load.probes := by
  obtain ⟨hparse, hprobes⟩ := load_of_reads h
  rw [hprobes]
  refine displayAllKprobes_keeps _ _ ?_
  rw [hparse]
  refine registerRecordKprobes_keeps _ _ _ _ fun i hi => ?_
  exact absurd hi List.not_mem_nil

theorem load_of_not_reads {x : LoadInput} (h : ¬ x.env.Reads) :
    x.load.parse = .zero ∧ x.load.probes = .zero := by
  unfold load ktimeSnoopInitModule
  by_cases hkmalloc : x.env.kmalloc = (true, true, true)
  · by_cases hopen : x.env.filpOpen = true
    · by_cases hread : x.env.readFails = true
      · simp [hkmalloc, hopen, hread]
      · exact absurd ⟨hkmalloc, hopen, by simpa using hread⟩ h
    · simp [hkmalloc, hopen]
  · have hnomem : (!x.env.kmalloc.1 || !x.env.kmalloc.2.1 || !x.env.kmalloc.2.2) = true := by
      by_contra hmem
      refine hkmalloc (Prod.ext ?_ (Prod.ext ?_ ?_)) <;> simp_all
    simp [hnomem]

/-- **A load is safe exactly when the file name fits `file_name`**, and the file, if it is read, has at
most `MAX_RECORD` lines of at most five cells that fit their fields. -/
theorem safe_iff (x : LoadInput) :
    x.Safe ↔ x.fileName.length < fileNameLen ∧ (x.env.Reads → ContentFits x.content) := by
  by_cases hreads : x.env.Reads
  · obtain ⟨hparse, -⟩ := load_of_reads hreads
    have haccess := accessesBelow_of_reads hreads
    constructor
    · rintro ⟨hcalls, -, hname⟩
      rw [hparse] at hcalls
      exact ⟨hname, fun _ => (processRecord_inField_iff x.content).1 hcalls⟩
    · rintro ⟨hname, hfits⟩
      refine ⟨hparse ▸ (processRecord_inField_iff x.content).2 (hfits hreads), fun i hi => ?_, hname⟩
      calc i < x.load.parse.recordCurr := haccess i hi
        _ ≤ (copiedCells x.content).length := hparse ▸ processRecord_rows_le x.content
        _ ≤ maxRecord := (hfits hreads).rows
  · obtain ⟨hparse, hprobes⟩ := load_of_not_reads hreads
    refine ⟨fun h => ⟨h.fileName, fun h' => absurd h' hreads⟩, fun h => ⟨?_, ?_, h.1⟩⟩
    · rw [hparse]
      exact fun c hc => absurd hc List.not_mem_nil
    · rw [hprobes]
      exact fun i hi => absurd hi List.not_mem_nil

/-- A line of six fields, `f 0 9 N 0 66`, in a file that is read. -/
def sixFields : LoadInput where
  fileName := []
  fileName_nul := by decide
  fileName_length := by decide
  content := [102, 32, 48, 32, 57, 32, 78, 32, 48, 32, 54, 54, 10]
  content_length := by decide
  env := ⟨(true, true, true), true, false, fun _ => none, fun _ => none, fun _ => none, fun _ => 0,
    fun _ => 0⟩

/-- The sixth field is stored through the NULL of `get_field_addr`. -/
theorem sixFields_not_safe : ¬ ∀ x : LoadInput, x.Safe := by
  intro h
  have hfield := ((h sixFields).calls ⟨0, 5, 10, 10⟩ (by decide +kernel)).field
  exact hfield rfl

end LoadInput

end KTools.Ktime
