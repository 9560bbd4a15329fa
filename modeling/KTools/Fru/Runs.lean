import KTools.Fru.Obliging

/-!
# Reading what was written

On a device that completes what it is asked for, a run of `fru read` and `fru write` reads what it would read from a
memory: every file that is read has the bytes of the files that were written before, and of the FRU where there are
none. A write ends the program just where the headers of the records are not inside the FRU.
-/

namespace KTools.Fru
open KTools.Lib KTools.Lib.Bytes KTools.Lanplus
open KTools.Sdr (Rsp request netfnStorage)

variable {δ : Type}

section commands
variable {host : Host δ} {fru : FruInfo} {id : UInt8} {contents : δ → Nat → UInt8} {limit : Nat}

theorem Obliging.info_returns (hobl : Obliging fru id host contents limit) (s : State δ) :
    Returns (sendrecv host (infoRequest id)) s fun answer t => contents t.dev = contents s.dev ∧
      ∃ rsp, answer = some rsp ∧ rsp.ccode = 0 ∧ fruInfo rsp.data = fru := by
  refine (sendrecv_returns _ s).mono fun answer t ht => ?_
  obtain ⟨rfl, rfl⟩ := ht
  exact hobl.informs s.dev

/-- The file has what is in the FRU. -/
theorem Obliging.ipmiFruReadToBin_reads (hobl : Obliging fru id host contents limit) (heap : Nat → UInt8)
    (s : State δ) :
    Returns (ipmiFruReadToBin host id (some heap)) s fun file t => contents t.dev = contents s.dev ∧
      file = some (slice (contents s.dev) 0 fru.size.toNat) := by
  refine (hobl.info_returns s).bind fun answer t ht => ?_
  obtain ⟨ht, rsp, rfl, hok, hinfo⟩ := ht
  simp only [hok, hinfo]
  refine Returns.ite (fun h => absurd rfl h) fun _ => Returns.modify_bind ?_
  refine (hobl.readFruArea_reads heap (by simp) (cleared t)).bind fun p u hu => ?_
  obtain ⟨hu, -, hbuf⟩ := hu
  have hcleared : contents (cleared t).dev = contents s.dev := ht
  rw [hcleared] at hu hbuf
  refine Returns.pure ⟨hu, congrArg some ?_⟩
  rw [hbuf]
  simpa using slice_store heap 0 (slice (contents s.dev) 0 fru.size.toNat)

theorem toNat_length {part : List UInt8} (h : part.length ≤ fru.size.toNat) :
    (UInt16.ofNat part.length).toNat = part.length := by
  have := fru.size.toNat_lt
  rw [UInt16.toNat_ofNat']
  omega

/-- The FRU has the file at its start. -/
theorem Obliging.ipmiFruWriteFromBin_writes (hobl : Obliging fru id host contents limit) {fuel : Nat}
    (hfuel : fru.size.toNat + 255 < fuel) (heap stack : Nat → UInt8) (file : List UInt8) {s : State δ}
    (hreadable : file ≠ [] → Readable fru.size.toNat (contents s.dev)) :
    Returns (ipmiFruWriteFromBin host id fuel (some heap) stack (some file)) s fun _ t =>
      contents t.dev = store (contents s.dev) 0 (file.take fru.size.toNat) := by
  refine (hobl.info_returns s).bind fun answer t ht => ?_
  obtain ⟨ht, rsp, rfl, hok, hinfo⟩ := ht
  simp only [hok, hinfo, Option.getD_some]
  refine Returns.ite (fun h => absurd rfl h) fun _ => Returns.modify_bind ?_
  have hsize := fru.size.toNat_lt
  have hle := List.length_take_le fru.size.toNat file
  have hfile : file = [] → file.take fru.size.toNat = [] := by
    rintro rfl
    exact List.take_nil
  generalize file.take fru.size.toNat = part at hle hfile ⊢
  have hlen := toNat_length hle
  have hfuel' : (UInt16.ofNat part.length).toNat + 255 < fuel := by omega
  have hcleared : contents (cleared t).dev = contents s.dev := ht
  refine Returns.ite (fun hne => ?_) fun hempty => ?_
  · have hreadable := hreadable fun h => hne (by simp [hfile h])
    have hfits : (0 : UInt16).toNat + (UInt16.ofNat part.length).toNat < 65536 := by
      simp only [UInt16.toNat_zero]
      omega
    have hstore := hobl.writeFruArea_stores
      (Writing.mk (contents s.dev) 0 0 (UInt16.ofNat part.length) (store heap 0 part) hfits hfits) hne
      (by simp [Writing.stop, hlen, hle]) hreadable hfuel' stack hcleared
    refine hstore.bind fun rc u hu => Returns.pure ?_
    refine hu.trans ?_
    simp only [hlen]
    exact congrArg (store (contents s.dev) 0) (slice_store heap 0 part)
  · have hnil : part = [] := by
      apply List.eq_nil_of_length_eq_zero
      rw [← hlen, not_not.1 hempty]
      rfl
    exact Returns.pure (hcleared.trans (by simp [hnil]))

theorem Obliging.ipmiFruWriteFromBin_faults (hobl : Obliging fru id host contents limit) (fuel : Nat)
    (heap stack : Nat → UInt8) {file : List UInt8} (hfile : file ≠ []) {s : State δ}
    (hreadable : ¬ Readable fru.size.toNat (contents s.dev)) :
    Throws (ipmiFruWriteFromBin host id fuel (some heap) stack (some file)) s .fault := by
  refine Throws.returns_bind (hobl.info_returns s) fun answer t ht => ?_
  obtain ⟨ht, rsp, rfl, hok, hinfo⟩ := ht
  simp only [hok, hinfo, Option.getD_some]
  rw [if_neg (not_not.2 rfl)]
  refine Throws.modify_bind ?_
  have hsize := fru.size.toNat_lt
  have hle := List.length_take_le fru.size.toNat file
  have hpos : 0 < (file.take fru.size.toNat).length := by
    have := List.length_pos_iff.2 hfile
    have := hobl.header_fits
    rw [List.length_take]
    omega
  generalize file.take fru.size.toNat = part at hle hpos ⊢
  have hlen := toNat_length hle
  have hne : UInt16.ofNat part.length ≠ 0 := by
    intro h
    rw [h] at hlen
    simp only [UInt16.toNat_zero] at hlen
    omega
  have hinside : ¬ fru.size < 0 + UInt16.ofNat part.length := by
    rw [UInt16.zero_add, UInt16.not_lt]
    exact UInt16.le_iff_toNat_le.2 (by omega)
  rw [if_pos hne]
  refine Throws.bind ?_
  unfold writeFruArea
  simp only
  rw [if_neg hinside, if_neg (by simp [hobl.byBytes])]
  have hcleared : contents (cleared t).dev = contents s.dev := ht
  exact (hobl.buildFruBloc_faults hreadable stack hcleared).bind

end commands

/-- A command, with what the memory has before it. -/
inductive Command where
  | read (heap : Nat → UInt8)
  | write (heap stack : Nat → UInt8) (file : List UInt8)

/-- The files that are read. -/
def runCommands (host : Host δ) (id : UInt8) (fuel : Nat) : List Command → FruM δ (List (Option (List UInt8)))
  | [] => return []
  | .read heap :: commands => do
    let file ← ipmiFruReadToBin host id (some heap)
    let files ← runCommands host id fuel commands
    return file :: files
  | .write heap stack file :: commands => do
    ipmiFruWriteFromBin host id fuel (some heap) stack (some file)
    runCommands host id fuel commands

/-- The files that are read from a memory of `size` bytes. -/
def filesOf (size : Nat) (c : Nat → UInt8) : List Command → List (Option (List UInt8))
  | [] => []
  | .read _ :: commands => some (slice c 0 size) :: filesOf size c commands
  | .write _ _ file :: commands => filesOf size (store c 0 (file.take size)) commands

/-- Before each write the blocks can be found. -/
def AllReadable (size : Nat) (c : Nat → UInt8) : List Command → Prop
  | [] => True
  | .read _ :: commands => AllReadable size c commands
  | .write _ _ file :: commands =>
    (file ≠ [] → Readable size c) ∧ AllReadable size (store c 0 (file.take size)) commands

/-- A run reads from the FRU what it would read from a memory. -/
theorem runCommands_files {host : Host δ} {fru : FruInfo} {id : UInt8} {contents : δ → Nat → UInt8} {limit : Nat}
    (hobl : Obliging fru id host contents limit) {fuel : Nat} (hfuel : fru.size.toNat + 255 < fuel)
    (commands : List Command) :
    ∀ s : State δ, AllReadable fru.size.toNat (contents s.dev) commands →
      Returns (runCommands host id fuel commands) s fun files _ =>
        files = filesOf fru.size.toNat (contents s.dev) commands := by
  induction commands with
  | nil => exact fun s _ => Returns.pure rfl
  | cons command commands ih =>
    intro s hall
    cases command with
    | read heap =>
      refine (hobl.ipmiFruReadToBin_reads heap s).bind fun file t ht => ?_
      obtain ⟨ht, rfl⟩ := ht
      have hrest := ih t (by rw [ht]; exact hall)
      rw [ht] at hrest
      exact hrest.bind fun files u hu => Returns.pure (by rw [hu, filesOf])
    | write heap stack file =>
      refine (hobl.ipmiFruWriteFromBin_writes hfuel heap stack file hall.1).bind fun _ t ht => ?_
      have hrest := ih t (by rw [ht]; exact hall.2)
      rw [ht] at hrest
      exact hrest

/-- A write ends the program in `read_fru_area` just where the headers of the records are not inside the FRU. -/
theorem ipmiFruWriteFromBin_faults_iff {host : Host δ} {fru : FruInfo} {id : UInt8} {contents : δ → Nat → UInt8}
    {limit : Nat} (hobl : Obliging fru id host contents limit) {fuel : Nat} (hfuel : fru.size.toNat + 255 < fuel)
    (heap stack : Nat → UInt8) (file : List UInt8) (s : State δ) :
    Throws (ipmiFruWriteFromBin host id fuel (some heap) stack (some file)) s .fault ↔
      file ≠ [] ∧ ¬ Readable fru.size.toNat (contents s.dev) := by
  constructor
  · intro hthrows
    by_contra hnot
    have hreadable : file ≠ [] → Readable fru.size.toNat (contents s.dev) := fun hfile =>
      Classical.byContradiction fun h => hnot ⟨hfile, h⟩
    have hreturns := hobl.ipmiFruWriteFromBin_writes hfuel heap stack file hreadable
    exact hreturns.not_throws _ hthrows
  · rintro ⟨hfile, hreadable⟩
    exact hobl.ipmiFruWriteFromBin_faults fuel heap stack hfile hreadable

/-! ### A device -/

def cardHost : Host (Nat → UInt8) := ⟨cardDevice 40, 60, 60⟩

theorem cardHost_obliging (id : UInt8) : Obliging smallFru id cardHost memory 40 where
  toIsFru := cardDevice_isFru id 40
  byBytes := rfl
  header_fits := by decide
  response_fits := by decide
  request_fits := by decide
  limit_ge := by decide
  informs d := ⟨rfl, _, rfl, rfl, rfl⟩
  answersGet d offset count _ := by
    simp only [cardHost, cardDevice_get]
    simp only [memoryDevice, getRequest, request, if_true]
    by_cases hlong : 40 < count.toNat
    · rw [if_pos hlong]
      exact ⟨_, rfl, .inr ⟨hlong, rfl⟩⟩
    · rw [if_neg hlong]
      exact ⟨_, rfl, .inl ⟨rfl, rfl, rfl⟩⟩
  answersSet d offset data _ := by
    simp only [cardHost, cardDevice_set]
    rw [smallFru, memoryDevice_set, if_neg List.not_mem_nil]
    by_cases hlong : 40 < data.length
    · rw [if_pos hlong]
      exact ⟨_, rfl, .inr ⟨hlong, rfl⟩⟩
    · rw [if_neg hlong]
      exact ⟨_, rfl, .inl rfl⟩

/-- A common header, and one record. -/
def cardMemory : Nat → UInt8 :=
  store (store (fun _ => 0) 0 [1, 0, 0, 0, 0, 8, 0, 0xF7]) 64 [0xC0, 0x82, 10, 0, 0xB4]

theorem cardMemory_readable : Readable 300 cardMemory :=
  fun _ _ _ => .record (by decide +kernel) fun _ h => absurd h (by decide +kernel)

def cardFile : List UInt8 := List.replicate 200 7

/-- The file takes the header's place. -/
theorem cardFile_readable : Readable 300 (store cardMemory 0 (cardFile.take 300)) :=
  fun h => absurd h (by decide +kernel)

def cardCommands : List Command := [.read blank, .write blank blank cardFile, .write blank blank [1, 2], .read blank]

theorem cardCommands_readable : AllReadable 300 cardMemory cardCommands :=
  ⟨fun _ => cardMemory_readable, fun _ => cardFile_readable, trivial⟩

def CardFiles (files : List (Option (List UInt8))) (_ : State (Nat → UInt8)) : Prop :=
  files = filesOf smallFru.size.toNat (memory cardMemory) cardCommands

theorem cardRun_files : Returns (runCommands cardHost 0 600 cardCommands) ⟨cardMemory, 0, 0⟩ CardFiles :=
  runCommands_files (cardHost_obliging 0) (by decide) cardCommands ⟨cardMemory, 0, 0⟩ cardCommands_readable

/-- The area starts 4 bytes before the end of the FRU. -/
def cutMemory : Nat → UInt8 := store (fun _ => 0) 0 [1, 0, 0, 0, 0, 37, 0, 0xDA]

theorem cutMemory_not_readable : ¬ Readable smallFru.size.toNat (memory cutMemory) := by
  intro h
  cases h (by decide +kernel) (by decide +kernel) (by decide +kernel) with
  | outside hbehind => exact absurd hbehind (by decide +kernel)
  | record hinside => exact absurd hinside (by decide +kernel)

theorem cutWrite_faults :
    Throws (ipmiFruWriteFromBin cardHost 0 600 (some blank) blank (some cardFile)) ⟨cutMemory, 0, 0⟩ .fault :=
  (ipmiFruWriteFromBin_faults_iff (cardHost_obliging 0) (by decide) blank blank cardFile ⟨cutMemory, 0, 0⟩).2
    ⟨by decide, cutMemory_not_readable⟩

end KTools.Fru
